import CDeclarations.Proofs.Specifier.Sequence

/-!
# `CDeclarations.Proofs.Parser.Alike`: what a parse forgets

A parse keeps the categories of its latest specifier sequence and the
count of braces of its latest initializer until the next one begins.
Two parses that differ in nothing but such leftovers are alike: no
token tells them apart (`Sound.alike_feed`), nor any text
(`Sound.alike_deliver`).

* `Alike`: the categories agree inside a sequence, and the counts
  inside an initializer.
* `digest_congr`: a sequence that has not begun does not read the
  categories.
-/

set_option autoImplicit false

namespace CDeclarations

/-- Digesting reads the categories only as the sequence is judged by
them. -/
theorem digest_congr {t : Tree} {datatype : NodeId} {flags flags' : Flags} (token : Token)
    (h : flags'.forSequence t datatype = flags.forSequence t datatype) :
    digest t datatype flags' token = digest t datatype flags token := by
  simp only [digest, h]

namespace Parser

/-- The parses differ in nothing that a token could tell apart: in the
categories outside a specifier sequence at most, and in the count of
braces outside an initializer. -/
structure Alike (p q : Parser) : Prop where
  tree : q.tree = p.tree
  state : q.state = p.state
  place : q.place = p.place
  pending : q.pending = p.pending
  flags : p.state = .datatype ∨ p.state = .parameters →
    q.flags.forSequence p.tree p.place = p.flags.forSequence p.tree p.place
  nesting : p.state = .initialization → q.nesting = p.nesting

/-- The parse with other leftovers. -/
def withLeftovers (p : Parser) (flags : Flags) (nesting : Int) : Parser :=
  { p with flags := flags, nesting := nesting }

variable {p q : Parser} {token : Token} {flags : Flags} {nesting : Int}

/-- A parser alike to another one differs from it in what is left over only.
-/
theorem Alike.eq_withLeftovers (h : p.Alike q) : q = p.withLeftovers q.flags q.nesting := by
  obtain ⟨tree, state, place, flags, nesting, pending⟩ := q
  obtain ⟨rfl, rfl, rfl, rfl, -, -⟩ := h
  rfl

/-- The mode that is pending is spent alike. -/
theorem Alike.spent (h : p.Alike q) :
    Alike { p with pending := .normal } { q with pending := .normal } :=
  ⟨h.tree, h.state, h.place, rfl, h.flags, h.nesting⟩

/-- Leftovers are not read in the other states. -/
theorem alike_withLeftovers (hd : p.state ≠ .datatype) (hp : p.state ≠ .parameters)
    (hi : p.state ≠ .initialization) : p.Alike (p.withLeftovers flags nesting) where
  tree := rfl
  state := rfl
  place := rfl
  pending := rfl
  flags h := (h.elim hd hp).elim
  nesting h := (hi h).elim

/-- A choice made alike on both sides is made between parsers that are alike.
-/
theorem alike_ite {c : Prop} [Decidable c] {p' q' : Parser} (h : c → p.Alike p')
    (h' : ¬c → q.Alike q') : (if c then p else q).Alike (if c then p' else q') := by
  split
  · next hc => exact h hc
  · next hc => exact h' hc

/-- A refusal does not look at what is left over. -/
theorem alike_refuse (failure : Failure) :
    (p.refuse token failure).Alike ((p.withLeftovers flags nesting).refuse token failure) :=
  alike_withLeftovers (p := p.refuse token failure) nofun nofun nofun

/-- A token is digested alike where the categories of the sequence
agree. -/
theorem alike_digestAt {datatype : NodeId} {within behind : State}
    (h : flags.forSequence p.tree datatype = p.flags.forSequence p.tree datatype)
    (hwithin : within ≠ .initialization) (hbehind : behind ≠ .initialization) :
    (p.digestAt datatype token within behind).Alike
      ((p.withLeftovers flags nesting).digestAt datatype token within behind) := by
  have hdigest : digest p.tree datatype flags token = digest p.tree datatype p.flags token :=
    digest_congr token h
  unfold digestAt
  dsimp only [withLeftovers]
  rw [hdigest]
  -- Each outcome enters the same state on both sides, and none of them is an
  -- initialization.
  cases (digest p.tree datatype p.flags token).outcome with
  | classified id => exact ⟨rfl, rfl, rfl, rfl, fun _ => rfl, fun h => (hwithin h).elim⟩
  | declared id => exact ⟨rfl, rfl, rfl, rfl, fun _ => rfl, fun h => (hbehind h).elim⟩
  | refused id failure => exact ⟨rfl, rfl, rfl, rfl, fun _ => rfl, nofun⟩

/-- An opening bracket and the container that is added with it are two
nodes. -/
theorem size_opening {parent id : NodeId} {outer bracket : NodeKind} :
    ((p.container parent outer token).leaf id bracket token).tree.size = p.tree.size + 2 := by
  rw [leaf, container, Tree.size_addLeaf, Tree.size_addContainer]

/-- The datatype of a new parameter holds no category yet, whichever
are left over. -/
theorem alike_newParameter {parent id : NodeId} (h : parent < p.tree.size)
    (hid : id = p.tree.size) :
    ((p.container parent .datatype token).enter .parameters id).Alike
      (((p.withLeftovers flags nesting).container parent .datatype token).enter
        .parameters id) := by
  subst hid
  have hnone : flags.forSequence (p.tree.addContainer parent .datatype token) p.tree.size =
      p.flags.forSequence (p.tree.addContainer parent .datatype token) p.tree.size := by
    rw [Flags.forSequence_addContainer h, Flags.forSequence_addContainer h]
  exact ⟨rfl, rfl, rfl, rfl, fun _ => hnone, nofun⟩

/-! ### The handlers -/

/-- An idle parser begins anew whatever is left over. -/
theorem Sound.alike_onIdle (hp : p.Sound) :
    (p.onIdle token).Alike ((p.withLeftovers flags nesting).onIdle token) := by
  have hlt := hp.stem.lt_size
  unfold Parser.onIdle
  refine alike_ite (fun _ => ?_) (fun _ => alike_ite (fun _ => ?_) (fun _ => ?_))
  · exact alike_withLeftovers (p := (p.container _ _ _).enter _ _) nofun nofun nofun
  · -- The new datatype holds no category, whichever are left over.
    refine alike_digestAt (p := p.container _ _ _) ?_ nofun nofun
    exact (Flags.forSequence_addContainer hlt flags .datatype token).trans
      (Flags.forSequence_addContainer hlt p.flags .datatype token).symm
  · exact alike_refuse _

/-- The word of a directive is read whatever is left over. -/
theorem alike_onPreprocessor :
    (p.onPreprocessor token).Alike ((p.withLeftovers flags nesting).onPreprocessor token) := by
  unfold Parser.onPreprocessor
  refine alike_ite (fun _ => ?_) (fun _ => ?_)
  · exact alike_withLeftovers (p := (p.container _ _ _).enter _ _) nofun nofun nofun
  refine alike_ite (fun _ => ?_) (fun _ => ?_)
  · exact alike_withLeftovers (p := (p.container _ _ _).enter _ _) nofun nofun nofun
  refine alike_ite (fun _ => ?_) (fun _ => ?_)
  · exact alike_withLeftovers (p := (p.container _ _ _).enter _ _) nofun nofun nofun
  · exact alike_refuse _

/-- A directive ends whatever is left over. -/
theorem alike_endDirective (kind : NodeKind) :
    (p.endDirective kind token).Alike ((p.withLeftovers flags nesting).endDirective kind token) :=
  alike_withLeftovers (p := p.endDirective kind token) nofun nofun nofun

/-- Behind a declared name only the count of braces could be left over, and it
begins anew. -/
theorem Sound.alike_onIdentifier (hp : p.Sound) :
    (p.onIdentifier token).Alike ((p.withLeftovers flags nesting).onIdentifier token) := by
  have hstem := hp.stem
  unfold Parser.onIdentifier
  refine alike_ite (fun _ => ?_) (fun _ => ?_)
  · exact alike_withLeftovers (p := (p.leaf _ _ _).enter _ _) nofun nofun nofun
  refine alike_ite (fun _ => ?_) (fun _ => ?_)
  · exact alike_withLeftovers (p := ((p.container _ _ _).leaf _ _ _).enter _ _) nofun nofun nofun
  refine alike_ite (fun _ => ?_) (fun _ => ?_)
  · have hparams := Tree.holds_addContainer hstem.lt_size .parameters token
    have hlt := (hparams.mono (Tree.grows_addLeaf hparams.lt_size .openParen token)).lt_size
    exact alike_newParameter (p := (p.container _ _ _).leaf _ _ _) hlt size_opening.symm
  refine alike_ite (fun _ => ?_) (fun _ => ?_)
  · -- The count of braces begins anew.
    exact ⟨rfl, rfl, rfl, rfl, nofun, fun _ => rfl⟩
  refine alike_ite (fun _ => ?_) (fun _ => ?_)
  · exact alike_refuse _
  · exact alike_refuse _

/-- A length is read whatever is left over. -/
theorem alike_onArrayDefinition :
    (p.onArrayDefinition token).Alike
      ((p.withLeftovers flags nesting).onArrayDefinition token) := by
  unfold Parser.onArrayDefinition
  refine alike_ite (fun _ => ?_) (fun _ => alike_ite (fun _ => ?_) (fun _ => ?_))
  · exact alike_withLeftovers (p := (p.leaf _ _ _).enter _ _) nofun nofun nofun
  · exact alike_refuse _
  · exact alike_withLeftovers (p := (p.leaf _ _ _).enter _ _) nofun nofun nofun

/-- An initializer looks at the count of braces, which is the same on both
sides. -/
theorem alike_onInitialization :
    (p.onInitialization token).Alike
      ((p.withLeftovers flags p.nesting).onInitialization token) := by
  unfold Parser.onInitialization
  refine alike_ite (fun _ => ?_) (fun _ => ?_)
  · exact ⟨rfl, rfl, rfl, rfl, nofun, fun _ => rfl⟩
  -- The brackets, and each separator with the count above zero and at zero.
  refine alike_ite (fun _ => ?_) (fun _ => ?_)
  · refine alike_ite (fun _ => ?_) (fun _ => ?_)
    · exact ⟨rfl, rfl, rfl, rfl, nofun, fun _ => rfl⟩
    · exact alike_refuse _
  refine alike_ite (fun _ => ?_) (fun _ => ?_)
  · refine alike_ite (fun _ => ?_) (fun _ => ?_)
    · exact ⟨rfl, rfl, rfl, rfl, nofun, fun _ => rfl⟩
    · exact alike_refuse _
  refine alike_ite (fun _ => ?_) (fun _ => ?_)
  · refine alike_ite (fun _ => ?_) (fun _ => ?_)
    · exact ⟨rfl, rfl, rfl, rfl, nofun, nofun⟩
    · exact alike_refuse _
  · exact ⟨rfl, rfl, rfl, rfl, nofun, fun _ => rfl⟩

/-- A parameter looks at the flags of its own sequence only. -/
theorem Sound.alike_onParameters (hp : p.Sound)
    (h : flags.forSequence p.tree p.place = p.flags.forSequence p.tree p.place) :
    (p.onParameters token).Alike ((p.withLeftovers flags nesting).onParameters token) := by
  have hstem' := hp.stem_parameters
  unfold Parser.onParameters
  refine alike_ite (fun _ => ?_) (fun _ => ?_)
  · exact alike_withLeftovers (p := (p.leaf _ _ _).enter _ _) nofun nofun nofun
  refine alike_ite (fun _ => ?_) (fun _ => ?_)
  · have hlt := (hstem'.mono (Tree.grows_addLeaf hstem'.lt_size .parameterSeparator token)).lt_size
    have hid : ∀ parent : NodeId,
        p.tree.size + 1 = (p.leaf parent .parameterSeparator token).tree.size :=
      fun parent => (p.tree.size_addLeaf parent .parameterSeparator token).symm
    exact alike_newParameter (p := p.leaf _ _ _) hlt (hid _)
  refine alike_ite (fun _ => ?_) (fun _ => ?_)
  · exact alike_digestAt h nofun nofun
  · exact alike_refuse _

/-! ### Any token -/

/-- A token that the state gives a meaning leaves alike parses alike. -/
theorem Sound.alike_handle (hp : p.Sound) (h : p.Alike q) :
    (p.handle token).Alike (q.handle token) := by
  -- All that is left of `q` is its leftovers, and what is known of them.
  have hflags := h.flags
  have hnesting := h.nesting
  rw [h.eq_withLeftovers] at hflags hnesting ⊢
  generalize q.flags = flags, q.nesting = nesting at hflags hnesting ⊢
  have hstate : (p.withLeftovers flags nesting).state = p.state := rfl
  unfold Parser.handle
  rw [hstate]
  cases hs : p.state with
  | idle => exact hp.alike_onIdle
  | preprocessor => exact alike_onPreprocessor
  | includeName | defineBody | pragma => exact alike_endDirective _
  | defineName => exact alike_withLeftovers (p := p.onDefineName token) nofun nofun nofun
  | datatype => exact alike_digestAt (hflags (Or.inl hs)) nofun nofun
  | identifier => exact hp.alike_onIdentifier
  | arrayDefinition => exact alike_onArrayDefinition
  | initialization =>
      obtain rfl : nesting = p.nesting := hnesting hs
      exact alike_onInitialization
  | parameters => exact hp.alike_onParameters (hflags (Or.inr hs))
  | functionDeclared => exact alike_refuse _
  | stopped failure => exact alike_withLeftovers (by simp [hs]) (by simp [hs]) (by simp [hs])

/-- A comment leaves alike parses alike, for it begins no sequence. -/
theorem Sound.alike_leaf (hp : p.Sound) (h : p.Alike q) {kind : NodeKind}
    (hk : kind.isComment = true) :
    (p.leaf p.place kind token).Alike (q.leaf q.place kind token) := by
  have hflags := h.flags
  have hnesting := h.nesting
  have hjudged : ∀ fl : Flags, fl.forSequence (p.tree.addLeaf p.place kind token) p.place =
      fl.forSequence p.tree p.place := fun fl =>
    Flags.forSequence_addLeaf_comment hp.regular.toLinked hp.stem.lt_size hk fl token
  rw [h.eq_withLeftovers] at hflags hnesting ⊢
  refine ⟨rfl, rfl, rfl, rfl, fun hs => ?_, hnesting⟩
  exact (hjudged _).trans ((hflags hs).trans (hjudged _).symm)

/-- No token tells alike parses apart. -/
theorem Sound.alike_feed (hp : p.Sound) (h : p.Alike q) :
    (p.feed token).Alike (q.feed token) := by
  unfold Parser.feed
  rw [h.state]
  refine alike_ite (fun _ => h) (fun _ => ?_)
  cases token.kind with
  | blockComment => exact hp.alike_leaf h rfl
  | lineComment => exact hp.alike_leaf h rfl
  | invalid =>
      rw [h.eq_withLeftovers]
      exact alike_refuse _
  | _ => exact hp.alike_handle h

/-! ### A run -/

/-- Parsers that are alike are stopped alike. -/
theorem Alike.isStopped_eq (h : p.Alike q) : q.isStopped = p.isStopped := by
  rw [isStopped, isStopped, h.state]

/-- Alike parses are handed the same tokens, and stay alike. -/
theorem Sound.alike_deliver (hp : p.Sound) (h : p.Alike q) (c : Cursor) :
    (p.deliver c).parser.Alike (q.deliver c).parser ∧
      (q.deliver c).cursor = (p.deliver c).cursor := by
  -- Both parsers ask for the same mode, so the lexer gives both the same token.
  induction p, c using deliver_induction generalizing q with
  | stopped p c hstopped =>
      rw [deliver_of_isStopped hstopped, deliver_of_isStopped (h.isStopped_eq.trans hstopped)]
      exact ⟨h, rfl⟩
  | ended p c d hrun hnext =>
      have hrun' := h.isStopped_eq.trans hrun
      rw [deliver_of_none hrun hnext, deliver_of_none hrun' (h.pending ▸ hnext)]
      exact ⟨h.spent, rfl⟩
  | delivered p c token d hrun hnext ih =>
      have hrun' := h.isStopped_eq.trans hrun
      rw [deliver_of_some hrun hnext, deliver_of_some hrun' (h.pending ▸ hnext)]
      exact ih (hp.receive token) (hp.spent.alike_feed h.spent)

/-- Alike parses are closed in the same way. -/
theorem Alike.close (h : p.Alike q) (c : Cursor) : q.close c = p.close c := by
  unfold Parser.close
  rw [h.state, h.tree, h.place]

end Parser

end CDeclarations
