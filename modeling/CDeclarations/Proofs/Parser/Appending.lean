import CDeclarations.Proofs.Parser.Footprint
import CDeclarations.Proofs.Parser.Tagging

/-!
# `CDeclarations.Proofs.Parser.Appending`: a parse only appends

Whatever a parse is handed, the nodes of its tree stay as they are, but
that they may get further children behind those that they have. One
token appends (`Sound.grows_feed`), and so does a whole run
(`Sound.grows_run`).

* `Tagging.of_near`: where a token may go but at the place and beside it.
* `appends_feedAll`: what one token does to the tree of any parse, and that the
  tree behind some tokens is a prefix of the tree behind more of them.
-/

set_option autoImplicit false

namespace CDeclarations.Parser

variable {p : Parser}

/-- One token leaves the nodes of the tree as they are. -/
theorem Sound.grows_feed (hp : p.Sound) (token : Token) : p.tree.Grows (p.feed token).tree := by
  cases hrun : p.isStopped with
  | true =>
      rw [feed_of_isStopped hrun]
      exact Tree.Grows.refl _
  | false =>
      obtain ⟨count, -, -, hadds⟩ := hp.appends_feed hrun token
      exact hadds.grows

/-- A run of tokens only adds to the tree. -/
theorem Sound.grows_feedAll (hp : p.Sound) (tokens : List Token) :
    p.tree.Grows (p.feedAll tokens).tree := by
  induction tokens generalizing p with
  | nil => exact Tree.Grows.refl _
  | cons token tokens ih => exact (hp.grows_feed token).trans (ih (hp.feed token))

/-- A delivery only adds to the tree. -/
theorem Sound.grows_deliver (hp : p.Sound) (c : Cursor) :
    p.tree.Grows (p.deliver c).parser.tree := by
  induction p, c using deliver_induction with
  | stopped p c h =>
      rw [deliver_of_isStopped h]
      exact Tree.Grows.refl _
  | ended p c d h hnext =>
      rw [deliver_of_none h hnext]
      exact Tree.Grows.refl _
  | delivered p c token d h hnext ih =>
      rw [deliver_of_some h hnext]
      exact (hp.spent.grows_feed token).trans (ih (hp.receive token))

/-- The end of the text only adds to the tree. -/
theorem Sound.grows_close (hp : p.Sound) (c : Cursor) : p.tree.Grows (p.close c).tree := by
  unfold Parser.close
  split
  · exact Tree.Grows.refl _
  · exact Tree.Grows.refl _
  · exact Tree.grows_add hp.stem.lt_size

/-- A run leaves the nodes of the tree as they are. -/
theorem Sound.grows_run (hp : p.Sound) (c : Cursor) : p.tree.Grows (p.run c).tree :=
  (hp.grows_deliver c).trans ((hp.deliver c).grows_close _)

/-! ### The nodes of one token -/

/-- A run of tokens keeps the flag that awaits a tag and the tree in
agreement. -/
theorem Sound.tagging_feedAll (hp : p.Sound) (h : p.Tagging) (tokens : List Token) :
    (p.feedAll tokens).Tagging :=
  hp.feedAll_induction h Sound.tagging_feed tokens

/-- The node that a due tag goes under is the open type of the place. -/
theorem Tagging.of_near (h : p.Tagging) {id : NodeId} (hnear : p.Near id) :
    id = p.place ∨ id = p.up p.place ∨ p.tree.AwaitsTag p.place id := by
  rcases hnear with hplace | hup | ⟨⟨hs, hk, hawaits⟩, rfl⟩
  · exact Or.inl hplace
  · exact Or.inr (Or.inl hup)
  · exact Or.inr (Or.inr (h.awaitsTag_tagParent hs hk hawaits))

/-- The tree is append-only. Behind any tokens, a further token leaves each node
as it is, but for children behind those that it has. A stopped parse is not
changed at all. Any other gets one, two or three nodes at the position of the
token, each below an earlier one of these, below the place, below its parent or
below the composed type of the place that is open. So the tree behind some
tokens is a prefix of the tree behind these and further ones. -/
theorem appends_feedAll (kind : UnitKind) (filename : String) (tokens : List Token) :
    let p := (ofUnit kind filename).feedAll tokens
    (∀ token,
      p.tree.Grows (p.feed token).tree ∧
      (p.isStopped = true → p.feed token = p) ∧
      (p.isStopped = false → ∃ count, 1 ≤ count ∧ count ≤ 3 ∧
        (p.feed token).tree.size = p.tree.size + count ∧
        ∀ id n, p.tree.size ≤ id → (p.feed token).tree.nodes[id]? = some n →
          n.position = token.position ∧
            ∃ parent, n.parent = some parent ∧
              (p.tree.size ≤ parent ∧ parent < id ∨ parent = p.place ∨ parent = p.up p.place ∨
                p.tree.AwaitsTag p.place parent))) ∧
      ∀ more, p.tree.Grows ((ofUnit kind filename).feedAll (tokens ++ more)).tree := by
  intro p
  have hp : p.Sound := sound_feedAll (sound_ofUnit kind filename) tokens
  have htagging : p.Tagging :=
    (sound_ofUnit kind filename).tagging_feedAll (tagging_ofUnit kind filename) tokens
  constructor
  · intro token
    refine ⟨hp.grows_feed token, fun hstopped => feed_of_isStopped hstopped token, ?_⟩
    intro hrun
    obtain ⟨count, hone, hthree, hadds⟩ := hp.appends_feed hrun token
    refine ⟨count, hone, hthree, hadds.size_eq, ?_⟩
    intro id n hle hn
    obtain ⟨hposition, parent, hparent, hlt, hnear⟩ := hadds.node_of_le hle hn
    refine ⟨hposition, parent, hparent, ?_⟩
    -- The parent is new itself, or one of the three old nodes a token can reach.
    rcases hnear with hnew | hnear
    · exact Or.inl ⟨hnew, hlt⟩
    · exact Or.inr (htagging.of_near hnear)
  · intro more
    show p.tree.Grows (List.foldl feed (ofUnit kind filename) (tokens ++ more)).tree
    rw [List.foldl_append]
    exact hp.grows_feedAll more

/-- The tag `S` goes below the type that `struct` opened, and behind a `]` that is
refused nothing changes. -/
theorem appends_feedAll_tag :
    let word (text : String) : Token := ⟨.identifier, .nowhere, text⟩
    let p := (ofUnit .source "").feedAll [word "struct"]
    let q := (ofUnit .source "").feedAll [⟨.singleChar, .nowhere, "]"⟩]
    p.isStopped = false ∧ p.tree.size ≤ 4 ∧
      (∃ n, (p.feed (word "S")).tree.nodes[4]? = some n ∧ n.position = .nowhere ∧
        ∃ parent, n.parent = some parent ∧
          (p.tree.size ≤ parent ∧ parent < 4 ∨ parent = p.place ∨ parent = p.up p.place ∨
            p.tree.AwaitsTag p.place parent)) ∧
      q.isStopped = true ∧ q.feed (word "S") = q := by
  intro word p q
  have hrun : p.isStopped = false := by decide +kernel
  have hstopped : q.isStopped = true := by decide +kernel
  have hle : p.tree.size ≤ 4 := by decide +kernel
  have hn : (p.feed (word "S")).tree.nodes[4]? =
      some ⟨.identifier, some 2, #[], .nowhere, some "S", none⟩ := by decide +kernel
  obtain ⟨hp, -⟩ := appends_feedAll .source "" [word "struct"]
  obtain ⟨hq, -⟩ := appends_feedAll .source "" [⟨.singleChar, .nowhere, "]"⟩]
  obtain ⟨-, -, hadds⟩ := hp (word "S")
  obtain ⟨-, hsame, -⟩ := hq (word "S")
  obtain ⟨-, -, -, -, hnew⟩ := hadds hrun
  exact ⟨hrun, hle, ⟨_, hn, hnew 4 _ hle hn⟩, hstopped, hsame hstopped⟩

end CDeclarations.Parser
