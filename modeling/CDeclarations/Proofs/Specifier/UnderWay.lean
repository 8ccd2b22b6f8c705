import CDeclarations.Proofs.Specifier.Sequence
import CDeclarations.Proofs.Specifier.Verdicts

/-!
# `CDeclarations.Proofs.Specifier.UnderWay`: a specifier sequence under way

A digester works on a tree, on one datatype in it and on the categories
that it holds for the datatype. Any of its states may be the first one:
the tree may hold anything, and the categories are whatever was left
behind. All that is asked of the tree is that it names no node that is
not there.

* `Sequence`: a state of the digester. `Sequence.run` goes on through
  tokens, refused or not.
* `Sequence.isUnbegun_step`: behind a token the datatype has begun, so
  that the next token is judged by the categories which that one left
  (`Sequence.held_step`).
-/

set_option autoImplicit false

namespace CDeclarations

/-! ### Trees without dangling names -/

namespace Tree

/-- Every node that a node names, as its parent or as a child, is
there. -/
structure Closed (t : Tree) : Prop where
  parent : ∀ {id : NodeId} {n : Node} {q : NodeId}, t.nodes[id]? = some n →
    n.parent = some q → q < t.size
  child : ∀ {q c : NodeId}, c ∈ t.children q → c < t.size

/-- A linked tree refers to its own nodes only. -/
theorem Linked.closed {t : Tree} (ht : t.Linked) : t.Closed where
  parent := by
    intro id n q hn hq
    by_cases hid : id = Tree.root
    · obtain ⟨m, hm, hroot⟩ := ht.root
      obtain rfl : m = n := Option.some.inj (hm.symm.trans (hid ▸ hn))
      rw [hroot] at hq
      cases hq
    · obtain ⟨q', hq', hlt, -⟩ := ht.parent hn hid
      obtain rfl : q' = q := Option.some.inj (hq'.symm.trans hq)
      exact Nat.lt_trans hlt (lt_size_of_getElem? hn)
  child := by
    intro q c hc
    obtain ⟨n, hn, -⟩ := ht.child hc
    exact lt_size_of_getElem? hn

variable {t : Tree} {parent datatype : NodeId} {kind : NodeKind} {position : Position}
  {payload diagnostic : Option String}

/-- A node that is added below one of the tree's refers to nodes of the tree.
-/
theorem Closed.add (ht : t.Closed) (h : parent < t.size) :
    (t.add parent kind position payload diagnostic).Closed where
  parent := by
    intro id m q hm hq
    rw [size_add]
    rw [getElem?_add kind position payload diagnostic h] at hm
    split at hm
    · cases hm
      cases hq
      exact Nat.lt_succ_of_lt h
    · obtain ⟨n, hn, rfl⟩ := Option.map_eq_some_iff.1 hm
      have hnq : n.parent = some q := by
        split at hq <;> exact hq
      exact Nat.lt_succ_of_lt (ht.parent hn hnq)
  child := by
    intro q c hc
    rw [size_add]
    rcases (mem_children_add kind position payload diagnostic h).1 hc with hc | ⟨-, rfl⟩
    · exact Nat.lt_succ_of_lt (ht.child hc)
    · exact Nat.lt_succ_self _

/-- A climb stays in the tree. -/
theorem Closed.parentOrSelf_lt (ht : t.Closed) (h : datatype < t.size) :
    t.parentOrSelf datatype < t.size := by
  have hn : t.nodes[datatype]? = some t.nodes[datatype] := Array.getElem?_eq_getElem h
  rw [parentOrSelf, hn, Option.bind_some]
  cases hq : t.nodes[datatype].parent with
  | none => exact h
  | some q => exact ht.parent hn hq

/-- A tag goes under a node of the tree. -/
theorem Closed.tagParent_lt (ht : t.Closed) (h : datatype < t.size) :
    t.tagParent datatype < t.size := by
  rw [tagParent]
  cases hc : (t.childrenOfKind datatype .userType).back? with
  | none => exact h
  | some c => exact ht.child (Array.mem_filter.1 (Array.mem_of_back? hc)).1

/-- A digested token appends nodes, each under one that is there. -/
theorem Closed.digest_induction (ht : t.Closed) (hd : datatype < t.size) {motive : Tree → Prop}
    (base : motive t)
    (add : ∀ {u : Tree} {parent : NodeId} (kind : NodeKind) (position : Position)
      (payload diagnostic : Option String), motive u → parent < u.size →
      motive (u.add parent kind position payload diagnostic))
    (flags : Flags) (token : Token) : motive (digest t datatype flags token).tree := by
  -- The five verdicts; a composed type adds below the node it added first.
  unfold digest
  dsimp only
  split
  · exact add _ _ _ _ base hd
  · refine add _ _ _ _ (add _ _ _ _ base hd) ?_
    rw [size_addContainer]
    exact Nat.lt_succ_self _
  · exact add _ _ _ _ base (ht.tagParent_lt hd)
  · exact add _ _ _ _ base (ht.parentOrSelf_lt hd)
  · exact add _ _ _ _ base hd

/-- What is no comment under the datatype stays there. -/
theorem isUnbegun_add_of_begun (ht : t.Closed) (h : parent < t.size)
    (hbegun : t.isUnbegun datatype = false) :
    (t.add parent kind position payload diagnostic).isUnbegun datatype = false := by
  rw [isUnbegun, Array.all_eq_false'] at hbegun ⊢
  obtain ⟨c, hc, hcomment⟩ := hbegun
  refine ⟨c, (mem_children_add kind position payload diagnostic h).2 (Or.inl hc), ?_⟩
  rwa [kind?_add kind position payload diagnostic h, if_neg (Nat.ne_of_lt (ht.child hc))]

/-- A node that is no comment begins the datatype it is added to. -/
theorem isUnbegun_add_self (h : datatype < t.size) (hk : kind.isComment = false) :
    (t.add datatype kind position payload diagnostic).isUnbegun datatype = false := by
  rw [isUnbegun, Array.all_eq_false']
  refine ⟨t.size, (mem_children_add kind position payload diagnostic h).2 (Or.inr ⟨rfl, rfl⟩), ?_⟩
  rw [kind?_add kind position payload diagnostic h, if_pos rfl, Option.any_some, hk]
  exact Bool.false_ne_true

end Tree

/-- The categories behind a token with this verdict. -/
def Verdict.behind (flags : Flags) : Verdict → Flags
  | .part _ after | .composed _ after | .tag after => after
  | .name | .refused _ => flags

/-! ### A sequence -/

/-- A specifier sequence under way: a datatype of a tree, and the
categories that are held for it. -/
structure Sequence where
  tree : Tree
  datatype : NodeId
  flags : Flags
  closed : tree.Closed
  isDatatype : tree.kind? datatype = some .datatype

namespace Sequence

/-- A new datatype under the root of a unit, with these categories left over
from before. -/
def ofUnit (flags : Flags) : Sequence where
  tree := Tree.ofDatatype
  datatype := 1
  flags := flags
  closed := ((Tree.regular_ofUnit .source "").add
    (Tree.regular_ofUnit .source "").stem_root).toLinked.closed
  isDatatype := rfl

variable (s : Sequence) (token : Token)

/-- The datatype is a node of the tree. -/
theorem datatype_lt : s.datatype < s.tree.size := by
  obtain ⟨n, hn, -⟩ := Option.map_eq_some_iff.1 s.isDatatype
  exact Tree.lt_size_of_getElem? hn

/-- The categories that the next token is judged by. -/
def held : Flags :=
  s.flags.forSequence s.tree s.datatype

/-- Digests the next token. -/
def digest : Digestion :=
  CDeclarations.digest s.tree s.datatype s.flags token

section Verdicts

variable {s token} {kind : NodeKind} {after : Flags} {word : Composed} {failure : Failure}

/-- A part is a leaf below the datatype. -/
theorem digest_of_part (hj : s.held.judge token = .part kind after) :
    s.digest token = ⟨s.tree.addLeaf s.datatype kind token, after, .classified s.tree.size⟩ := by
  rw [held] at hj
  rw [digest, CDeclarations.digest, hj]

/-- A composed type is a container with its marker. -/
theorem digest_of_composed (hj : s.held.judge token = .composed word after) :
    s.digest token =
      ⟨(s.tree.addContainer s.datatype .userType token).addLeaf s.tree.size word.nodeKind token,
        after, .classified (s.tree.size + 1)⟩ := by
  rw [held] at hj
  rw [digest, CDeclarations.digest, hj]

/-- A tag is a leaf below the type that awaits it. -/
theorem digest_of_tag (hj : s.held.judge token = .tag after) :
    s.digest token =
      ⟨s.tree.addLeaf (s.tree.tagParent s.datatype) .identifier token, after,
        .classified s.tree.size⟩ := by
  rw [held] at hj
  rw [digest, CDeclarations.digest, hj]

/-- A name is a leaf below the container of the datatype, and the flags stay.
-/
theorem digest_of_name (hj : s.held.judge token = .name) :
    s.digest token =
      ⟨s.tree.addLeaf (s.tree.parentOrSelf s.datatype) .identifier token, s.held,
        .declared s.tree.size⟩ := by
  rw [held] at hj ⊢
  rw [digest, CDeclarations.digest, hj]

/-- A refusal is an error below the datatype, and the flags stay. -/
theorem digest_of_refused (hj : s.held.judge token = .refused failure) :
    s.digest token =
      ⟨s.tree.addFailure s.datatype token failure, s.held, .refused s.tree.size failure⟩ := by
  rw [held] at hj ⊢
  rw [digest, CDeclarations.digest, hj]

/-- The flags behind a token are what its verdict says of the flags before it.
-/
theorem flags_digest : (s.digest token).flags = (s.held.judge token).behind s.held := by
  cases hj : s.held.judge token with
  | part kind after => rw [digest_of_part hj]; rfl
  | composed word after => rw [digest_of_composed hj]; rfl
  | tag after => rw [digest_of_tag hj]; rfl
  | name => rw [digest_of_name hj]; rfl
  | refused failure => rw [digest_of_refused hj]; rfl

end Verdicts

/-- A digest leaves a tree that refers to its own nodes only. -/
theorem closed_digest : (s.digest token).tree.Closed :=
  s.closed.digest_induction s.datatype_lt s.closed (fun _ _ _ _ ht h => ht.add h) s.flags token

/-- A digest only adds to the tree. -/
theorem grows_digest : s.tree.Grows (s.digest token).tree :=
  s.closed.digest_induction s.datatype_lt (.refl s.tree)
    (fun _ _ _ _ hg h => hg.trans (Tree.grows_add h)) s.flags token

/-- A digest keeps every node. -/
theorem lt_size_digest {id : NodeId} (h : id < s.tree.size) : id < (s.digest token).tree.size := by
  obtain ⟨m, hm, -⟩ := s.grows_digest token id _ (Array.getElem?_eq_getElem h)
  exact Tree.lt_size_of_getElem? hm

/-- The sequence behind the next token, which may be refused. -/
def step : Sequence where
  tree := (s.digest token).tree
  datatype := s.datatype
  flags := (s.digest token).flags
  closed := s.closed_digest token
  isDatatype := by
    obtain ⟨n, hn, hk⟩ := Option.map_eq_some_iff.1 s.isDatatype
    obtain ⟨m, hm, hnm⟩ := s.grows_digest token s.datatype n hn
    rw [Tree.kind?, hm, Option.map_some, hnm.kind, hk]

/-- A step leaves the tree of the digest. -/
@[simp] theorem tree_step : (s.step token).tree = (s.digest token).tree := rfl

/-- A step stays in the same datatype. -/
@[simp] theorem datatype_step : (s.step token).datatype = s.datatype := rfl

/-- The sequence behind some tokens, of which any may be refused. -/
def run (tokens : List Token) : Sequence :=
  tokens.foldl step s

/-- Without tokens the sequence stays as it is. -/
@[simp] theorem run_nil : s.run [] = s := rfl

/-- A run begins with a step. -/
@[simp] theorem run_cons (tokens : List Token) :
    s.run (token :: tokens) = (s.step token).run tokens := rfl

/-- A run stays in the same datatype. -/
@[simp] theorem datatype_run (tokens : List Token) : (s.run tokens).datatype = s.datatype := by
  induction tokens generalizing s with
  | nil => rfl
  | cons token tokens ih => exact ih (s.step token)

/-- An unbegun datatype holds no category. -/
theorem held_of_isUnbegun (h : s.tree.isUnbegun s.datatype = true) : s.held = ∅ := by
  rw [held, Flags.forSequence, if_pos h]

/-- A token begins the datatype, even if it is refused. -/
theorem isUnbegun_step : (s.step token).tree.isUnbegun s.datatype = false := by
  -- A tag or the declared name may go elsewhere, but neither is taken without a category.
  have hbegun : s.held ≠ ∅ → s.tree.isUnbegun s.datatype = false := by
    intro hne
    rw [Bool.eq_false_iff]
    exact fun h => hne (s.held_of_isUnbegun h)
  have hlt := s.datatype_lt
  show (s.digest token).tree.isUnbegun s.datatype = false
  cases hj : s.held.judge token with
  | part kind after =>
      rw [digest_of_part hj]
      exact Tree.isUnbegun_add_self hlt (Flags.isComment_of_judge hj)
  | composed word after =>
      rw [digest_of_composed hj]
      refine Tree.isUnbegun_add_of_begun (s.closed.add hlt) ?_ (Tree.isUnbegun_add_self hlt rfl)
      rw [Tree.size_addContainer]
      exact Nat.lt_succ_self _
  | tag after =>
      rw [digest_of_tag hj]
      refine Tree.isUnbegun_add_of_begun s.closed (s.closed.tagParent_lt hlt) (hbegun ?_)
      intro hempty
      have hopen := Flags.awaitsTag_of_judge hj
      rw [hempty] at hopen
      cases hopen
  | name =>
      rw [digest_of_name hj]
      refine Tree.isUnbegun_add_of_begun s.closed (s.closed.parentOrSelf_lt hlt) (hbegun ?_)
      intro hempty
      cases Flags.takes_of_name hj with
      | name hkind hword htyped =>
          rw [hempty] at htyped
          cases htyped
  | refused failure =>
      rw [digest_of_refused hj]
      exact Tree.isUnbegun_add_self hlt rfl

/-- The categories behind a token are those that the next one is judged
by. -/
theorem held_step : (s.step token).held = (s.digest token).flags := by
  rw [held, Flags.forSequence]
  exact if_neg (Bool.eq_false_iff.1 (s.isUnbegun_step token))

end Sequence

end CDeclarations
