import CDeclarations.Proofs.Parser.Footprint
import CDeclarations.Proofs.Tree.Outline

/-!
# `CDeclarations.Proofs.Parser.Outline`: the outline of a parse can be read back

The tree of a parse is legible: the tokens that it is handed add no
further unit, and the messages of its errors fit on one line
(`Sound.legible_feed`, `Sound.legible_run`). Its outline therefore tells
what the tree shows, as the outline of any legible tree does, whatever
texts the parsed unit holds (`render_tells_listing`).
-/

set_option autoImplicit false

namespace CDeclarations

/-- The messages of a parse fit on one line. -/
theorem Failure.newline_notMem_message (failure : Failure) : '\n' ∉ failure.message.toList := by
  have hline : ∀ c ∈ failure.message.toList, (c != '\n') = true := by
    cases failure with
    | rejected error => cases error <;> exact forall_mem_of_all rfl
    | unsupported construct => cases construct <;> exact forall_mem_of_all rfl
  exact fun h => bne_iff_ne.1 (hline _ h) rfl

/-- What a token adds to a legible tree leaves it legible. -/
theorem Tree.Adds.legible {token : Token} {near : NodeId → Prop} {t u : Tree} {count : Nat}
    (h : t.Adds token near count u) (ht : t.Legible) : u.Legible := by
  induction h with
  | none => exact ht
  | node _ hlt _ hkind payload hmessage ih =>
      refine ih.add hlt hkind _ payload fun message hdiagnostic => ?_
      obtain ⟨failure, rfl⟩ := hmessage message hdiagnostic
      exact failure.newline_notMem_message

namespace Parser

variable {p : Parser}

/-- A token leaves the tree legible. -/
theorem Sound.legible_feed (hp : p.Sound) (h : p.tree.Legible) (token : Token) :
    (p.feed token).tree.Legible := by
  cases hrun : p.isStopped with
  | true => rwa [feed_of_isStopped hrun]
  | false =>
      obtain ⟨count, -, -, hadds⟩ := hp.appends_feed hrun token
      exact hadds.legible h

/-- A run of tokens leaves the tree legible. -/
theorem Sound.legible_feedAll (hp : p.Sound) (h : p.tree.Legible) (tokens : List Token) :
    (p.feedAll tokens).tree.Legible :=
  hp.feedAll_induction h Sound.legible_feed tokens

/-- A delivery leaves the tree legible. -/
theorem Sound.legible_deliver (hp : p.Sound) (h : p.tree.Legible) (c : Cursor) :
    (p.deliver c).parser.tree.Legible := by
  induction p, c using deliver_induction with
  | stopped p c hstop => rwa [deliver_of_isStopped hstop]
  | ended p c d hrun hnext => rwa [deliver_of_none hrun hnext]
  | delivered p c token d hrun hnext ih =>
      rw [deliver_of_some hrun hnext]
      exact ih (hp.receive token) (hp.spent.legible_feed h token)

/-- The mark of a text that ends too soon is as legible as the tree. -/
theorem Sound.legible_close (hp : p.Sound) (h : p.tree.Legible) (c : Cursor) :
    (p.close c).tree.Legible := by
  unfold Parser.close
  split
  · exact h
  · exact h
  · refine h.add hp.stem.lt_size rfl _ _ ?_
    rintro message ⟨⟩
    exact Failure.newline_notMem_message _

/-- The tree of a whole run is legible. -/
theorem Sound.legible_run (hp : p.Sound) (h : p.tree.Legible) (c : Cursor) :
    (p.run c).tree.Legible :=
  (hp.deliver c).legible_close (hp.legible_deliver h c) _

/-- Legible trees with the same outline show the same rows, and every
tree that a parse makes is legible. -/
theorem render_tells_listing :
    (∀ t u : Tree, t.Legible → u.Legible → t.render = u.render → t.listing = u.listing) ∧
      ∀ (kind : UnitKind) (filename : String) (tokens : List Token) (text : String),
        ((ofUnit kind filename).feedAll tokens).tree.Legible ∧
          (((ofUnit kind filename).feedAll tokens).run (.ofString text)).tree.Legible := by
  refine ⟨fun t u ht hu h => ht.listing_eq_of_render_eq hu h, ?_⟩
  intro kind filename tokens text
  have hsound := sound_ofUnit kind filename
  have hlegible := hsound.legible_feedAll (Tree.legible_ofUnit kind filename) tokens
  exact ⟨hlegible, (sound_feedAll hsound tokens).legible_run hlegible _⟩

/-- A payload that looks like the rest of its line and an error below it,
in two trees that got their nodes in different orders. -/
theorem render_tells_listing_interleaved :
    let payload := "\" @1:2\n  error \"x\" @1:2 (unexpected token)"
    let datatype := (Tree.ofUnit .source "unit.c").add 0 .datatype ⟨1, 1⟩ none none
    let t := (datatype.add 1 .specifier ⟨1, 1⟩ (some payload) none).add 0 .error ⟨2, 3⟩
      (some "[") (some "unexpected token")
    let u := (datatype.add 0 .error ⟨2, 3⟩ (some "[") (some "unexpected token")).add 1 .specifier
      ⟨1, 1⟩ (some payload) none
    t.nodes ≠ u.nodes ∧ t.render = u.render ∧ t.listing = u.listing ∧
      (parse .source "unit.c" "int a[").tree.Legible := by
  intro payload datatype t u
  have hnone : ∀ message, (none : Option String) = some message → '\n' ∉ message.toList :=
    fun _ h => absurd h (Option.some_ne_none _).symm
  have hmessage : ∀ message, some "unexpected token" = some message →
      '\n' ∉ message.toList := by
    rintro message ⟨⟩
    decide
  -- Both trees are built legible, and their dumps are evaluated.
  have hdatatype : datatype.Legible := (Tree.legible_ofUnit _ _).add (by decide) rfl _ _ hnone
  have ht : t.Legible :=
    (hdatatype.add (by decide) rfl _ _ hnone).add (by decide) rfl _ _ hmessage
  have hu : u.Legible :=
    (hdatatype.add (by decide) rfl _ _ hmessage).add (by decide) rfl _ _ hnone
  have hrender : t.render = u.render := by decide +kernel
  exact ⟨by decide, hrender, render_tells_listing.1 t u ht hu hrender,
    (render_tells_listing.2 .source "unit.c" [] "int a[").2⟩

end Parser

end CDeclarations
