import CDeclarations.Proofs.Parser.Placement

/-!
# `CDeclarations.Proofs.Specifier.Sequence`: a sequence that closes

A specifier sequence is digested token by token: each token but the
last is classified, and the last one is the declared name. `Closes`
says so of a datatype in a tree, through `digest`. What the tree adds
to the judgement is one bit only, whether the datatype holds anything
but comments:

* `closes_iff`: a sequence closes a datatype exactly when the
  categories alone accept it (`Flags.Closes`), beginning with those
  that the datatype is judged by.
* `isSpecifiers_iff`: so the sequences that close an empty datatype are
  those accepted from no category at all, whichever the tree.
-/

set_option autoImplicit false

namespace CDeclarations

/-! ### The datatype has begun -/

namespace Tree

/-- The datatype holds a node that is no comment. -/
def Begun (t : Tree) (datatype : NodeId) : Prop :=
  ∃ c ∈ t.children datatype, t.Stem c

variable {t u : Tree} {datatype : NodeId}

/-- A datatype has begun when it has a child that is no comment. -/
theorem isUnbegun_eq_false_iff (ht : t.Linked) :
    t.isUnbegun datatype = false ↔ t.Begun datatype := by
  rw [isUnbegun, Array.all_eq_false', Begun]
  apply exists_congr
  intro c
  apply and_congr_right
  intro hc
  obtain ⟨n, hn, -⟩ := ht.child hc
  simp [kind?, Stem, hn]

/-- A tree that grows keeps its children. -/
theorem Grows.mem_children (hg : t.Grows u) {id c : NodeId} (h : c ∈ t.children id) :
    c ∈ u.children id := by
  obtain ⟨n, hn⟩ : ∃ n, t.nodes[id]? = some n :=
    ⟨_, Array.getElem?_eq_getElem (lt_size_of_mem_children h)⟩
  obtain ⟨m, hm, hnm⟩ := hg id n hn
  rw [children, hn] at h
  rw [children, hm]
  exact Array.mem_toList_iff.1 (hnm.children.subset (Array.mem_toList_iff.2 h))

/-- What has begun stays begun. -/
theorem Begun.mono (h : t.Begun datatype) (hg : t.Grows u) : u.Begun datatype := by
  obtain ⟨c, hc, hstem⟩ := h
  exact ⟨c, hg.mem_children hc, hstem.mono hg⟩

/-- A node that is no comment begins the datatype it is added to. -/
theorem begun_add (h : datatype < t.size) {kind : NodeKind} (hk : kind.isComment = false)
    (position : Position) (payload diagnostic : Option String) :
    (t.add datatype kind position payload diagnostic).Begun datatype :=
  ⟨t.size, (mem_children_add kind position payload diagnostic h).2 (Or.inr ⟨rfl, rfl⟩),
    (holds_add kind position payload diagnostic h).stem hk⟩

/-- A comment begins nothing. -/
theorem isUnbegun_add_comment (ht : t.Linked) {parent : NodeId} (h : parent < t.size)
    {kind : NodeKind} (hk : kind.isComment = true) (position : Position)
    (payload diagnostic : Option String) (datatype : NodeId) :
    (t.add parent kind position payload diagnostic).isUnbegun datatype
      = t.isUnbegun datatype := by
  have hg : t.Grows (t.add parent kind position payload diagnostic) := grows_add h
  have hnew : (t.add parent kind position payload diagnostic).Linked := ht.add h
  rw [← Bool.not_inj_iff, Bool.eq_iff_iff, Bool.not_eq_true', Bool.not_eq_true',
    isUnbegun_eq_false_iff hnew, isUnbegun_eq_false_iff ht]
  constructor
  · -- What begins the datatype is an old child, for the new node is a comment.
    rintro ⟨c, hc, n, hn, hkn⟩
    rw [getElem?_add kind position payload diagnostic h] at hn
    split at hn
    · cases hn
      rw [hk] at hkn
      cases hkn
    · next hne =>
      rcases (mem_children_add kind position payload diagnostic h).1 hc with hc | ⟨-, rfl⟩
      · obtain ⟨m, hm, rfl⟩ := Option.map_eq_some_iff.1 hn
        refine ⟨c, hc, m, hm, ?_⟩
        split at hkn <;> exact hkn
      · exact absurd rfl hne
  · exact fun hb => hb.mono hg

end Tree

/-! ### What the categories accept -/

/-- The categories accept the tokens as the rest of a sequence: each
token but the last is a part of it, and the last one is the declared
name. -/
def Flags.Closes (flags : Flags) : List Token → Prop
  | [] => False
  | token :: tokens =>
      match flags.judge token with
      | .part _ after | .composed _ after | .tag after => after.Closes tokens
      | .name => tokens = []
      | .refused _ => False

/-- The kinds of the parts of a sequence. -/
def partKinds : List NodeKind :=
  [.specifier, .qualifier, .modifier, .primitiveType, .userType, .pointer]

/-- A keyword that is part of a type becomes a node of one of the kinds of
parts. -/
theorem Flags.mem_partKinds_of_judgeKeyword {flags after : Flags} {keyword : Keyword}
    {kind : NodeKind} (h : flags.judgeKeyword keyword = .part kind after) : kind ∈ partKinds := by
  cases keyword <;> simp only [Flags.judgeKeyword] at h <;> split at h <;> cases h <;> decide

/-- A part becomes a node of one of the kinds of parts. -/
theorem Flags.mem_partKinds_of_judge {flags after : Flags} {token : Token} {kind : NodeKind}
    (h : flags.judge token = .part kind after) : kind ∈ partKinds := by
  simp only [Flags.judge] at h
  split at h
  · cases h
  split at h
  · split at h <;> cases h
  split at h
  · exact Flags.mem_partKinds_of_judgeKeyword h
  simp only [Flags.judgeOther] at h
  split at h
  · cases h; decide
  split at h
  · split at h <;> cases h; decide
  · cases h

/-- A part of a sequence is no comment. -/
theorem Flags.isComment_of_judge {flags after : Flags} {token : Token} {kind : NodeKind}
    (h : flags.judge token = .part kind after) : kind.isComment = false := by
  have hkinds : ∀ kind ∈ partKinds, kind.isComment = false := by decide
  exact hkinds kind (Flags.mem_partKinds_of_judge h)

/-- A tag is due only where a composed type is open. -/
theorem Flags.awaitsTag_of_judge {flags after : Flags} {token : Token}
    (h : flags.judge token = .tag after) : flags.awaitsTag = true := by
  simp only [Flags.judge] at h
  split at h
  · cases h
  split at h
  -- Of all branches only the one that awaits a tag takes one.
  · next hawaits => exact hawaits
  split at h
  · next keyword _ =>
    cases keyword <;> simp only [Flags.judgeKeyword] at h <;> split at h <;> cases h
  simp only [Flags.judgeOther] at h
  split at h
  · cases h
  split at h
  · split at h <;> cases h
  · cases h

/-! ### What a datatype accepts -/

/-- The tokens, digested one after another, close the sequence in
`datatype`: each token but the last is classified, and the last one is
the declared name. -/
inductive Closes (datatype : NodeId) : Tree → Flags → List Token → Prop
  | name {t : Tree} {flags : Flags} {token : Token} {id : NodeId}
      (h : (digest t datatype flags token).outcome = .declared id) :
      Closes datatype t flags [token]
  | part {t : Tree} {flags : Flags} {token : Token} {tokens : List Token} {id : NodeId}
      (h : (digest t datatype flags token).outcome = .classified id)
      (hrest : Closes datatype (digest t datatype flags token).tree
        (digest t datatype flags token).flags tokens) :
      Closes datatype t flags (token :: tokens)

/-- A tree that holds one datatype, the node 1, with nothing in it. -/
def Tree.ofDatatype : Tree :=
  (Tree.ofUnit .source "").add Tree.root .datatype .nowhere none none

/-- A specifier sequence with its name: it begins with an identifier
and closes an empty datatype. -/
def IsSpecifiers (tokens : List Token) : Prop :=
  (∃ first rest, tokens = first :: rest ∧ first.kind = .identifier) ∧
    Closes 1 Tree.ofDatatype ∅ tokens

variable {t : Tree} {datatype : NodeId} {flags : Flags} {token : Token} {tokens : List Token}

/-- A sequence closes with its first token, or behind it. -/
theorem closes_cons_iff :
    Closes datatype t flags (token :: tokens) ↔
      match (digest t datatype flags token).outcome with
      | .classified _ => Closes datatype (digest t datatype flags token).tree
          (digest t datatype flags token).flags tokens
      | .declared _ => tokens = []
      | .refused _ _ => False := by
  constructor
  · intro h
    cases h with
    | name h => rw [h]
    | part h hrest => rwa [h]
  · intro h
    split at h
    · next id hid => exact .part hid h
    · next id hid => exact h ▸ .name hid
    · exact h.elim

/-- Once a datatype has begun, its categories are kept. -/
theorem Flags.forSequence_of_begun (ht : t.Linked) (h : t.Begun datatype) (flags : Flags) :
    flags.forSequence t datatype = flags := by
  rw [Flags.forSequence, (Tree.isUnbegun_eq_false_iff ht).2 h, if_neg Bool.false_ne_true]

/-- A new node has no child yet. -/
theorem Tree.children_addContainer {parent : NodeId} (h : parent < t.size) (kind : NodeKind)
    (token : Token) : (t.addContainer parent kind token).children t.size = #[] := by
  rw [addContainer, children_add _ _ _ _ h, if_neg (Nat.ne_of_gt h),
    children_of_le (Nat.le_refl _)]

/-- A new datatype holds no category yet. -/
theorem Flags.forSequence_addContainer {parent : NodeId} (h : parent < t.size) (flags : Flags)
    (kind : NodeKind) (token : Token) :
    flags.forSequence (t.addContainer parent kind token) t.size = ∅ := by
  rw [Flags.forSequence, Tree.isUnbegun, Tree.children_addContainer h, if_pos (by simp)]

/-- A comment changes nothing in the categories that a datatype is
judged by. -/
theorem Flags.forSequence_addLeaf_comment (ht : t.Linked) {parent : NodeId}
    (h : parent < t.size) {kind : NodeKind} (hk : kind.isComment = true) (flags : Flags)
    (token : Token) :
    flags.forSequence (t.addLeaf parent kind token) datatype = flags.forSequence t datatype := by
  rw [Flags.forSequence, Flags.forSequence, Tree.addLeaf, Tree.isUnbegun_add_comment ht h hk]

/-- A tag finds the datatype begun, for an empty set of categories
awaits none. -/
theorem begun_of_awaitsTag (ht : t.Linked) (h : (flags.forSequence t datatype).awaitsTag = true) :
    t.Begun datatype := by
  rw [← Tree.isUnbegun_eq_false_iff ht]
  cases hb : t.isUnbegun datatype with
  | false => rfl
  | true =>
      rw [Flags.forSequence, hb, if_pos rfl] at h
      exact absurd h (by decide)

/-- A classified token begins its datatype. -/
theorem begun_digest (ht : t.Regular) (hd : t.Stem datatype) {id : NodeId}
    (h : (digest t datatype flags token).outcome = .classified id) :
    (digest t datatype flags token).tree.Begun datatype := by
  cases hj : (flags.forSequence t datatype).judge token with
  | part kind after =>
      simp only [digest, hj]
      exact Tree.begun_add hd.lt_size (Flags.isComment_of_judge hj) _ _ _
  | composed word after =>
      simp only [digest, hj]
      have hbegun : (t.addContainer datatype .userType token).Begun datatype :=
        Tree.begun_add hd.lt_size rfl _ _ _
      refine hbegun.mono (Tree.grows_addLeaf ?_ _ token)
      rw [Tree.size_addContainer]
      exact Nat.lt_succ_self _
  | tag after =>
      simp only [digest, hj]
      -- The tag may go below the composed type, but the datatype holds that type already.
      have hbegun := begun_of_awaitsTag ht.toLinked (Flags.awaitsTag_of_judge hj)
      exact hbegun.mono (Tree.grows_addLeaf (Tree.Regular.stem_tagParent hd).lt_size _ token)
  | name => simp [digest, hj] at h
  | refused failure => simp [digest, hj] at h

/-- A sequence closes a datatype exactly when the categories that the
datatype is judged by accept it. -/
theorem closes_iff (ht : t.Regular) (hd : t.Stem datatype) :
    Closes datatype t flags tokens ↔ (flags.forSequence t datatype).Closes tokens := by
  -- The tree and the categories change with each token, the datatype does not.
  induction tokens generalizing t flags with
  | nil => exact ⟨nofun, nofun⟩
  | cons token tokens ih =>
      obtain ⟨hreg, hgrows⟩ := digest_regular_grows ht hd flags token
      -- Behind a classified token the datatype has begun, so its categories stay.
      have hrest : ∀ id, (digest t datatype flags token).outcome = .classified id →
          (Closes datatype (digest t datatype flags token).tree
            (digest t datatype flags token).flags tokens ↔
            (digest t datatype flags token).flags.Closes tokens) := by
        intro id hid
        rw [ih hreg (hd.mono hgrows),
          Flags.forSequence_of_begun hreg.toLinked (begun_digest ht hd hid)]
      rw [closes_cons_iff, Flags.Closes]
      cases hj : (flags.forSequence t datatype).judge token <;>
        simp only [digest, hj] at hrest ⊢
      · exact hrest _ rfl
      · exact hrest _ rfl
      · exact hrest _ rfl

/-- The sequences that close an empty datatype are those accepted from
no category. -/
theorem isSpecifiers_iff :
    IsSpecifiers tokens ↔
      (∃ first rest, tokens = first :: rest ∧ first.kind = .identifier) ∧
        (∅ : Flags).Closes tokens := by
  have hroot := (Tree.regular_ofUnit .source "").stem_root
  have hnew : Tree.ofDatatype.Holds 1 .datatype Tree.root := Tree.holds_add _ _ _ _ hroot.lt_size
  have hflags : (∅ : Flags).forSequence Tree.ofDatatype 1 = ∅ := by
    rw [Flags.forSequence, ite_self]
  have hreg : Tree.ofDatatype.Regular := (Tree.regular_ofUnit .source "").add hroot
  rw [IsSpecifiers, closes_iff hreg (hnew.stem rfl), hflags]

end CDeclarations
