import CDeclarations.Proofs.Parser.Slots
import CDeclarations.Proofs.Specifier.Contradictions
import CDeclarations.Proofs.Tree.Transcript

/-!
# `CDeclarations.Proofs.Specifier.Replay`: the categories that a datatype shows

The categories of a sequence are kept beside the tree, yet they can be read
off it again: each node of the datatype tells what it added. A composed type
tells it in two steps, for its tag is found below it.

* `Tree.replay`: the categories read off the datatype, node by node.
  `Tree.replay_add` and `Tree.AwaitsTag.replay_add` say what an append
  changes.
* `Tree.Replays`: the categories held for a datatype are those read off it. It
  names one type at most, and a composed type begins with the marker of its
  word.
* `Tree.lasting_replays`: so it stays while the datatype is under way.
-/

set_option autoImplicit false

namespace CDeclarations

/-! ### What a node tells -/

/-- The categories behind a modifier: a second `long` has one of its own. -/
def Flags.recordModifier (flags : Flags) (word : Modifier) : Flags :=
  if word = .long ∧ flags.contains .long = true then flags ∪ .longLong else flags ∪ word.flag

/-- The categories behind a node of a datatype, by its kind, its text and
whether it holds a tag. Comments and errors tell nothing. -/
def Flags.record (flags : Flags) (kind : NodeKind) (payload : Option String) (tagged : Bool) :
    Flags :=
  match kind with
  | .specifier => flags ∪ .storage
  | .qualifier => flags ∪ .qualifier
  | .pointer => flags \ .qualifier
  | .modifier =>
      match payload.bind Keyword.ofWord? with
      | some (.modifier word) => flags.recordModifier word
      | _ => flags
  | .primitiveType =>
      match payload.bind Keyword.ofWord? with
      | some (.primitive word) => flags ∪ word.flag
      | _ => flags
  | .userType =>
      match payload, tagged with
      | some _, _ => flags ∪ .userDefined
      | none, false => flags ∪ .composed
      | none, true => flags ∪ .composed ∪ .userDefined
  | _ => flags

namespace Tree

/-- The node holds a tag. -/
def isTagged (t : Tree) (id : NodeId) : Bool :=
  !(t.childrenOfKind id .identifier).isEmpty

/-- The categories behind a child of a datatype. -/
def recordChild (t : Tree) (flags : Flags) (child : NodeId) : Flags :=
  match t.nodes[child]? with
  | some n => flags.record n.kind n.payload (t.isTagged child)
  | none => flags

/-- The categories that the children of a datatype tell, in their order. -/
def replay (t : Tree) (datatype : NodeId) : Flags :=
  (t.children datatype).toList.foldl t.recordChild ∅

end Tree

/-- A comment records nothing. -/
theorem Flags.record_of_isComment {kind : NodeKind} (hk : kind.isComment = true) (flags : Flags)
    (payload : Option String) (tagged : Bool) : flags.record kind payload tagged = flags := by
  cases kind <;> first | rfl | cases hk

/-- A part of a sequence tells what it added. -/
theorem Flags.record_of_part {flags after : Flags} {token : Token} {kind : NodeKind}
    (hj : flags.judge token = .part kind after) :
    flags.record kind (some token.text) false = after := by
  -- One case for each word; only a modifier looks at the flags to tell the second
  -- `long`.
  cases takes_of_part hj with
  | storage _ _ => rfl
  | qualifier _ _ => rfl
  | @modifier m added hword hadded =>
      rw [record, Option.bind_some, Token.ofWord?_of_keyword? hword]
      show flags.recordModifier m = flags ∪ added
      rw [recordModifier]
      rcases Records.eq_of_modifier_judge hadded with ⟨rfl, hnew⟩ | ⟨rfl, rfl, hlong⟩
      · refine if_neg ?_
        rintro ⟨rfl, hlong⟩
        exact Bool.eq_false_iff.1 hnew hlong
      · exact if_pos ⟨rfl, hlong⟩
  | primitive hword _ =>
      rw [record, Option.bind_some, Token.ofWord?_of_keyword? hword]
  | pointer _ => rfl
  | typeName _ _ _ => rfl

/-- A comment tells nothing. -/
theorem Tree.recordChild_of_isComment {t : Tree} {c : NodeId}
    (h : (t.kind? c).any NodeKind.isComment = true) (flags : Flags) :
    t.recordChild flags c = flags := by
  rw [kind?] at h
  cases hn : t.nodes[c]? with
  | none => rw [recordChild, hn]
  | some n =>
      rw [hn] at h
      rw [recordChild, hn]
      exact Flags.record_of_isComment h flags _ _

namespace Tree

variable {t v : Tree} {parent datatype u : NodeId} {kind : NodeKind} {position : Position}
  {payload diagnostic : Option String}

/-! ### What an append changes -/

/-- A node is tagged by an identifier that is put below it, and by nothing
else. -/
theorem isTagged_add (ht : t.Linked) (h : parent < t.size) (id : NodeId) :
    (t.add parent kind position payload diagnostic).isTagged id =
      (t.isTagged id || decide (id = parent ∧ kind = .identifier)) := by
  rw [isTagged, isTagged, childrenOfKind_add ht h]
  split
  · next hboth => simp [hboth]
  · next hboth => simp [hboth]

/-- A child tells the same behind an append, unless the append is its tag. -/
theorem recordChild_add (ht : t.Linked) (h : parent < t.size) {c : NodeId} (hc : c < t.size)
    (htag : c = parent → kind ≠ .identifier) (flags : Flags) :
    (t.add parent kind position payload diagnostic).recordChild flags c =
      t.recordChild flags c := by
  have htagged : (t.add parent kind position payload diagnostic).isTagged c = t.isTagged c := by
    rw [isTagged_add ht h, decide_eq_false fun hboth => htag hboth.1 hboth.2, Bool.or_false]
  rw [recordChild, recordChild, getElem?_add kind position payload diagnostic h,
    if_neg (Nat.ne_of_lt hc), Array.getElem?_eq_getElem hc, Option.map_some, htagged]
  by_cases heq : parent = c
  · rw [if_pos heq]
    rfl
  · rw [if_neg heq]

/-- The children tell the same behind an append, unless it is a tag of one. -/
theorem foldl_recordChild_add (ht : t.Linked) (h : parent < t.size) {cs : List NodeId}
    (hcs : ∀ c ∈ cs, c ∈ t.children datatype)
    (htag : ∀ c ∈ cs, c = parent → kind ≠ .identifier) (flags : Flags) :
    cs.foldl (t.add parent kind position payload diagnostic).recordChild flags =
      cs.foldl t.recordChild flags :=
  List.foldl_ext _ _ _ fun f c hc =>
    recordChild_add ht h (ht.closed.child (hcs c hc)) (htag c hc) f

/-- A node that is no tag tells of itself in its datatype, and nowhere
else. -/
theorem replay_add (ht : t.Linked) (h : parent < t.size) (htag : kind ≠ .identifier) :
    (t.add parent kind position payload diagnostic).replay datatype =
      if datatype = parent then (t.replay datatype).record kind payload false
      else t.replay datatype := by
  -- The old children are recorded as before, and none of them gets a tag.
  have hold : (t.children datatype).toList.foldl
      (t.add parent kind position payload diagnostic).recordChild ∅ = t.replay datatype :=
    foldl_recordChild_add ht h (fun c hc => Array.mem_toList_iff.1 hc) (fun _ _ _ => htag) ∅
  have hnew := getElem?_add_new kind position payload diagnostic h
  have huntagged :
      (t.add parent kind position payload diagnostic).isTagged t.size = false := by
    rw [isTagged_add ht h, isTagged, childrenOfKind, children_of_le (Nat.le_refl _),
      decide_eq_false fun hboth => htag hboth.2]
    rfl
  rw [replay, children_add kind position payload diagnostic h]
  split
  · rw [Array.toList_push, List.foldl_append, hold, List.foldl_cons, List.foldl_nil, recordChild,
      hnew, huntagged]
  · exact hold

/-! ### The open type -/

/-- Comments record nothing. -/
theorem foldl_recordChild_of_isComment {cs : List NodeId}
    (hcs : ∀ c ∈ cs, (t.kind? c).any NodeKind.isComment = true) (flags : Flags) :
    cs.foldl t.recordChild flags = flags := by
  induction cs with
  | nil => rfl
  | cons c cs ih =>
      rw [List.foldl_cons, recordChild_of_isComment (hcs c List.mem_cons_self)]
      exact ih fun c hc => hcs c (List.mem_cons_of_mem _ hc)

/-- In a datatype that names one type at most, the open type is that one. -/
theorem AwaitsTag.only (h : t.AwaitsTag datatype u)
    (htypes : (t.childrenOfKind datatype .userType).size ≤ 1) :
    t.childrenOfKind datatype .userType = #[u] ∧
      ∃ before after, (t.children datatype).toList = before ++ u :: after ∧ u ∉ before ∧
        ∀ c ∈ after, (t.kind? c).any NodeKind.isComment = true := by
  obtain ⟨before, after, hchildren, hcomments, hlist⟩ := h.types
  have hno : before.filter (fun c => t.kind? c = some .userType) = [] := by
    rw [← Array.length_toList, hlist, List.length_append, List.length_singleton] at htypes
    exact List.eq_nil_of_length_eq_zero (by omega)
  refine ⟨?_, before, after, hchildren, ?_, hcomments⟩
  · rw [← Array.toList_inj, hlist, hno]
    rfl
  · intro hu
    exact List.filter_eq_nil_iff.1 hno u hu (decide_eq_true h.holds.kind?)

/-- The tag tells that the composed type is named. -/
theorem AwaitsTag.replay_add (ht : t.Linked) (h : t.AwaitsTag datatype u)
    (htypes : (t.childrenOfKind datatype .userType).size ≤ 1)
    (hawaits : (t.replay datatype).awaitsTag = true) :
    (t.add u .identifier position payload diagnostic).replay datatype =
      t.replay datatype ∪ .userDefined := by
  obtain ⟨-, before, after, hchildren, hbefore, hcomments⟩ := h.only htypes
  obtain ⟨n, hn, hkind, -, hpayload⟩ := h.node
  have hlt := lt_size_of_getElem? hn
  have hgrows : t.Grows (t.add u .identifier position payload diagnostic) := grows_add hlt
  obtain ⟨m, hm, hnm⟩ := hgrows u n hn
  have hmem : ∀ c ∈ before ++ u :: after, c ∈ t.children datatype :=
    fun c hc => Array.mem_toList_iff.1 (hchildren ▸ hc)
  have hcomment : u ∉ after := by
    intro hu
    have hcomment := hcomments u hu
    rw [h.holds.kind?] at hcomment
    cases hcomment
  -- The children but the type tell the same.
  have hold : ∀ {cs : List NodeId}, cs ⊆ before ++ u :: after → u ∉ cs → ∀ flags,
      cs.foldl (t.add u .identifier position payload diagnostic).recordChild flags =
        cs.foldl t.recordChild flags :=
    fun hsub hu => foldl_recordChild_add ht hlt (fun c hc => hmem c (hsub hc))
      fun c hc heq => absurd (heq ▸ hc) hu
  have htagged : (t.add u .identifier position payload diagnostic).isTagged u = true := by
    rw [isTagged_add ht hlt, decide_eq_true ⟨rfl, rfl⟩, Bool.or_true]
  -- The type was open, and so without a tag.
  have huntagged : t.replay datatype = (before.foldl t.recordChild ∅) ∪ .composed := by
    have hreplay : t.replay datatype =
        (before.foldl t.recordChild ∅).record .userType none (t.isTagged u) := by
      rw [replay, hchildren, List.foldl_append, List.foldl_cons,
        foldl_recordChild_of_isComment hcomments, recordChild, hn]
      simp only [hkind, hpayload]
    rw [hreplay]
    cases htag : t.isTagged u with
    | false => rfl
    | true =>
        rw [hreplay, htag] at hawaits
        exact absurd hawaits (Bool.eq_false_iff.1 (Flags.awaitsTag_union_userDefined _))
  have hne : datatype ≠ u := Nat.ne_of_lt (h.holds.parent_lt ht)
  rw [huntagged, replay, children_add .identifier position payload diagnostic hlt, if_neg hne,
    hchildren, List.foldl_append, List.foldl_cons,
    hold (List.subset_append_left _ _) hbefore,
    hold (fun c hc => List.mem_append_right _ (List.mem_cons_of_mem u hc)) hcomment,
    foldl_recordChild_of_isComment hcomments, recordChild, hm, htagged]
  simp only [hnm.kind, hkind, hnm.payload, hpayload]
  rfl

/-! ### The markers of composed types -/

/-- The composed type `u` begins with the marker of the word that opened
it. -/
def OpenedBy (t : Tree) (u : NodeId) (word : Composed) : Prop :=
  ∃ n m c text, t.nodes[u]? = some n ∧ n.children.toList.head? = some c ∧
    t.nodes[c]? = some m ∧ m.kind = word.nodeKind ∧ m.position = n.position ∧
    m.payload = some text ∧ Keyword.ofWord? text = some (.composed word)

/-- A tree that grows keeps the word a type was opened by. -/
theorem OpenedBy.mono {word : Composed} (h : t.OpenedBy u word) (hg : t.Grows v) :
    v.OpenedBy u word := by
  obtain ⟨n, m, c, text, hn, hc, hm, hkind, hposition, hpayload, hword⟩ := h
  obtain ⟨n', hn', hnn⟩ := hg u n hn
  obtain ⟨m', hm', hmm⟩ := hg c m hm
  refine ⟨n', m', c, text, hn', ?_, hm', hmm.kind.trans hkind, ?_, hmm.payload.trans hpayload,
    hword⟩
  · obtain ⟨rest, hrest⟩ := hnn.children
    rw [← hrest, List.head?_append, hc, Option.some_or]
  · rw [hmm.position, hnn.position, hposition]

/-- The word of a composed type opens it. -/
theorem openedBy_composed (hlt : datatype < t.size) {token : Token} {word : Composed}
    (hword : token.keyword? = some (.composed word)) :
    ((t.addContainer datatype .userType token).addLeaf t.size word.nodeKind token).OpenedBy
      t.size word := by
  have hnew : (t.addContainer datatype .userType token).nodes[t.size]? =
      some ⟨.userType, some datatype, #[], token.position, none, none⟩ :=
    getElem?_add_new _ _ _ _ hlt
  have hlt' : t.size < (t.addContainer datatype .userType token).size := lt_size_of_getElem? hnew
  have htype : ((t.addContainer datatype .userType token).addLeaf t.size word.nodeKind
      token).nodes[t.size]? = some ⟨.userType, some datatype,
        #[(t.addContainer datatype .userType token).size], token.position, none, none⟩ := by
    rw [addLeaf, getElem?_add_old _ _ _ _ hlt' hnew, if_pos rfl]
    rfl
  have hmarker : ((t.addContainer datatype .userType token).addLeaf t.size word.nodeKind
      token).nodes[(t.addContainer datatype .userType token).size]? =
      some ⟨word.nodeKind, some t.size, #[], token.position, some token.text, none⟩ :=
    getElem?_add_new _ _ _ _ hlt'
  exact ⟨_, _, _, token.text, htype, rfl, hmarker, rfl, rfl, rfl,
    Token.ofWord?_of_keyword? hword⟩

end Tree

/-! ### The types that a datatype names -/

/-- The number of types that a datatype with these categories names. -/
def Flags.typeCount (flags : Flags) : Nat :=
  (flags.contains .userDefined || flags.contains .composed).toNat

namespace Flags

variable {flags after : Flags} {token : Token} {kind : NodeKind}

/-- Another category than those of a type's name and of a composed type. -/
theorem typeCount_union {s : Flags} (hs : s.Single) (huser : s ≠ userDefined)
    (hcomposed : s ≠ composed) (flags : Flags) : (flags ∪ s).typeCount = flags.typeCount := by
  rw [typeCount, typeCount, hs.contains_union_of_ne single_userDefined huser.symm,
    hs.contains_union_of_ne single_composed hcomposed.symm]

/-- A type that is named or composed counts as one. -/
theorem typeCount_eq_one (h : flags.contains .userDefined = true ∨
    flags.contains .composed = true) : flags.typeCount = 1 := by
  rw [typeCount, Bool.or_eq_true_iff.2 h]
  rfl

/-- Flags that name no type count none. -/
theorem typeCount_eq_zero (hawaits : flags.awaitsTag = false) (huntyped : flags.namesType = false) :
    flags.typeCount = 0 := by
  have huser := (contains_eq_false_of_namesType huntyped).1
  rw [typeCount, huser, contains_composed_eq_false hawaits huser]
  rfl

/-- A part that names a type is the first one to do so. -/
theorem typeCount_of_part (hj : flags.judge token = .part kind after) :
    after.typeCount = flags.typeCount + if kind = .userType then 1 else 0 := by
  have hawaits := awaitsTag_eq_false_of_judge hj nofun nofun
  -- Only the name of a type counts, and it is judged where none is counted.
  cases takes_of_part hj with
  | storage _ _ => exact typeCount_union single_storage (by decide) (by decide) flags
  | qualifier _ _ => exact typeCount_union single_qualifier (by decide) (by decide) flags
  | @modifier m added _ hadded =>
      rcases Records.eq_of_modifier_judge hadded with ⟨rfl, -⟩ | ⟨rfl, -, -⟩
      · obtain ⟨-, huser, hcomposed⟩ := Keyword.flag_ne (w := .modifier m) rfl
        exact typeCount_union m.single_flag huser hcomposed flags
      · exact typeCount_union single_longLong (by decide) (by decide) flags
  | @primitive p _ _ =>
      obtain ⟨-, huser, hcomposed⟩ := Keyword.flag_ne (w := .primitive p) rfl
      exact typeCount_union p.single_flag huser hcomposed flags
  | pointer _ =>
      show (flags \ qualifier).typeCount = flags.typeCount
      rw [typeCount, typeCount,
        single_qualifier.contains_diff_of_ne single_userDefined (by decide),
        single_qualifier.contains_diff_of_ne single_composed (by decide)]
  | typeName _ _ huntyped =>
      have hone : (flags ∪ userDefined).typeCount = 1 := typeCount_eq_one
        (Or.inl (single_userDefined.contains_union_self flags))
      rw [hone, typeCount_eq_zero hawaits huntyped]
      rfl

/-- So is the word of a composed type. -/
theorem typeCount_of_composed {word : Composed} (hj : flags.judge token = .composed word after) :
    after.typeCount = flags.typeCount + 1 := by
  have hawaits := awaitsTag_eq_false_of_judge hj nofun nofun
  cases takes_of_composed hj with
  | composed _ huntyped _ =>
      have hone : (flags ∪ composed).typeCount = 1 := typeCount_eq_one
        (Or.inr (single_composed.contains_union_self flags))
      rw [hone, typeCount_eq_zero hawaits huntyped]

/-- The tag belongs to the type that is open. -/
theorem typeCount_of_tag (hj : flags.judge token = .tag after) :
    after.typeCount = flags.typeCount := by
  cases takes_of_tag hj with
  | tag _ _ hopen =>
      rw [awaitsTag, Bool.and_eq_true] at hopen
      rw [typeCount_eq_one (Or.inr hopen.1),
        typeCount_eq_one (Or.inl (single_userDefined.contains_union_self flags))]

end Flags

/-! ### A datatype under way -/

/-- The categories held for the datatype are those that it tells. They bound
the types that it names, and where they await a tag a composed type is open,
with the marker of its word in it. -/
structure Tree.Replays (t : Tree) (datatype : NodeId) (flags : Flags) : Prop where
  held : flags.forSequence t datatype = t.replay datatype
  types : (t.childrenOfKind datatype .userType).size ≤ (t.replay datatype).typeCount
  awaits : (t.replay datatype).awaitsTag = true →
    ∃ u word, t.AwaitsTag datatype u ∧ t.OpenedBy u word

namespace Tree.Replays

variable {t : Tree} {datatype : NodeId} {flags : Flags} {token : Token}

/-- A datatype that is replayed has one type at most. -/
theorem size_types_le (h : t.Replays datatype flags) :
    (t.childrenOfKind datatype .userType).size ≤ 1 :=
  Nat.le_trans h.types (Bool.toNat_le _)

/-- A part is recorded as it was judged. -/
theorem part (h : t.Replays datatype flags) (ht : t.Linked) (hlt : datatype < t.size)
    {kind : NodeKind} {after : Flags}
    (hj : (flags.forSequence t datatype).judge token = .part kind after)
    (hheld : after.forSequence (t.addLeaf datatype kind token) datatype = after) :
    (t.addLeaf datatype kind token).Replays datatype after := by
  rw [h.held] at hj
  have hkind : kind ≠ .identifier := by
    have hkinds : NodeKind.identifier ∉ partKinds := by decide
    exact fun heq => hkinds (heq ▸ Flags.mem_partKinds_of_judge hj)
  have hreplay : (t.addLeaf datatype kind token).replay datatype = after := by
    rw [addLeaf, replay_add ht hlt hkind, if_pos rfl, Flags.record_of_part hj]
  refine ⟨hheld.trans hreplay.symm, ?_, ?_⟩
  -- The count of types goes up with the node of a type, and with no other.
  · have hle := h.types
    have hcount := Flags.typeCount_of_part hj
    rw [hreplay, addLeaf, childrenOfKind_add ht hlt]
    by_cases hkind : kind = .userType
    · rw [if_pos hkind] at hcount
      rw [if_pos ⟨rfl, hkind⟩, Array.size_push, hcount]
      exact Nat.succ_le_succ hle
    · rw [if_neg hkind] at hcount
      rw [if_neg fun hboth => hkind hboth.2, hcount]
      exact hle
  · rw [hreplay, Flags.awaitsTag_of_part hj]
    exact fun hawaits => Bool.noConfusion hawaits

/-- The word of a composed type is recorded with its container, which awaits
the tag. -/
theorem composed (h : t.Replays datatype flags) (ht : t.Regular) (hd : t.Stem datatype)
    {word : Composed} {after : Flags}
    (hj : (flags.forSequence t datatype).judge token = .composed word after)
    (hheld : after.forSequence ((t.addContainer datatype .userType token).addLeaf t.size
      word.nodeKind token) datatype = after) :
    ((t.addContainer datatype .userType token).addLeaf t.size word.nodeKind token).Replays
      datatype after := by
  rw [h.held] at hj
  have hlt := hd.lt_size
  have hnew : (t.addContainer datatype .userType token).Linked := (ht.add hd).toLinked
  have hlt' : t.size < (t.addContainer datatype .userType token).size := by
    rw [size_addContainer]
    exact Nat.lt_succ_self _
  have hne : datatype ≠ t.size := Nat.ne_of_lt hlt
  have hmarker : word.nodeKind ≠ .identifier := by cases word <;> decide
  have hkeyword : token.keyword? = some (.composed word) := by
    cases Flags.takes_of_composed hj with
    | composed hword _ _ => exact hword
  -- The marker is recorded nowhere, the container as the composed type.
  have hreplay : ((t.addContainer datatype .userType token).addLeaf t.size word.nodeKind
      token).replay datatype = after := by
    rw [addLeaf, replay_add hnew hlt' hmarker, if_neg hne, addContainer,
      replay_add ht.toLinked hlt (by decide), if_pos rfl]
    cases Flags.takes_of_composed hj with
    | composed _ _ _ => rfl
  refine ⟨hheld.trans hreplay.symm, ?_, ?_⟩
  · rw [hreplay, addLeaf, childrenOfKind_add hnew hlt', if_neg fun hboth => hne hboth.1,
      addContainer, childrenOfKind_add ht.toLinked hlt, if_pos ⟨rfl, rfl⟩, Array.size_push]
    rw [Flags.typeCount_of_composed hj]
    exact Nat.succ_le_succ h.types
  · intro _
    exact ⟨t.size, word, awaitsTag_composed ht hd word token, openedBy_composed hlt hkeyword⟩

/-- A tag is recorded by the type it goes into. -/
theorem tag (h : t.Replays datatype flags) (ht : t.Linked) {after : Flags}
    (hj : (flags.forSequence t datatype).judge token = .tag after)
    (hheld : after.forSequence (t.addLeaf (t.tagParent datatype) .identifier token) datatype =
      after) :
    (t.addLeaf (t.tagParent datatype) .identifier token).Replays datatype after := by
  rw [h.held] at hj
  obtain ⟨u, word, hu, -⟩ := h.awaits (Flags.awaitsTag_of_judge hj)
  rw [hu.tagParent_eq] at hheld ⊢
  -- A tag sets the user-defined type.
  have hafter : after = t.replay datatype ∪ .userDefined := by
    cases Flags.takes_of_tag hj with
    | tag _ _ _ => rfl
  have hreplay : (t.addLeaf u .identifier token).replay datatype = after := by
    rw [addLeaf, hu.replay_add ht h.size_types_le (Flags.awaitsTag_of_judge hj), hafter]
  refine ⟨hheld.trans hreplay.symm, ?_, ?_⟩
  · rw [hreplay, addLeaf, childrenOfKind_add ht hu.holds.lt_size,
      if_neg (fun hboth => by cases hboth.2), Flags.typeCount_of_tag hj]
    exact h.types
  · rw [hreplay, Flags.awaitsTag_of_tag hj]
    exact fun hawaits => Bool.noConfusion hawaits

end Tree.Replays

/-- A datatype tells the categories that are held for it for as long as it is
under way. -/
theorem Tree.lasting_replays : Lasting Tree.Replays where
  container {t parent} h flags token := by
    have hreplay : (t.addContainer parent .datatype token).replay t.size = ∅ := by
      rw [replay, children_addContainer h]
      rfl
    refine ⟨(Flags.forSequence_addContainer h flags .datatype token).trans hreplay.symm, ?_, ?_⟩
    · rw [childrenOfKind, children_addContainer h]
      exact Nat.zero_le _
    · rw [hreplay]
      exact fun hawaits => absurd hawaits (by decide)
  comment {t datatype flags kind} ht hd h hk token := by
    have hlt := hd.lt_size
    have hreplay : (t.addLeaf datatype kind token).replay datatype = t.replay datatype := by
      rw [addLeaf, replay_add ht.toLinked hlt (by rintro rfl; cases hk), if_pos rfl,
        Flags.record_of_isComment hk]
    refine ⟨?_, ?_, ?_⟩
    · rw [Flags.forSequence_addLeaf_comment ht.toLinked hlt hk, h.held, hreplay]
    · rw [hreplay, addLeaf, childrenOfKind_add ht.toLinked hlt,
        if_neg fun hboth => by rw [hboth.2] at hk; cases hk]
      exact h.types
    · rw [hreplay]
      intro hawaits
      obtain ⟨u, word, hu, hword⟩ := h.awaits hawaits
      exact ⟨u, word, hu.add ht.toLinked hlt fun _ => hk, hword.mono (grows_addLeaf hlt kind token)⟩
  digest {t datatype flags token id} ht hd h houtcome := by
    have hreg := (digest_regular_grows ht hd flags token).1
    -- The datatype has begun, so that its categories stay.
    have hheld := Flags.forSequence_of_begun hreg.toLinked (begun_digest ht hd houtcome)
      (CDeclarations.digest t datatype flags token).flags
    cases hj : (flags.forSequence t datatype).judge token with
    | part kind after =>
        simp only [CDeclarations.digest, hj] at hheld ⊢
        exact h.part ht.toLinked hd.lt_size hj hheld
    | composed word after =>
        simp only [CDeclarations.digest, hj] at hheld ⊢
        exact h.composed ht hd hj hheld
    | tag after =>
        simp only [CDeclarations.digest, hj] at hheld ⊢
        exact h.tag ht.toLinked hj hheld
    | name => simp [CDeclarations.digest, hj] at houtcome
    | refused failure => simp [CDeclarations.digest, hj] at houtcome

/-- The digester reads nothing off its categories but what the datatype
tells. -/
theorem Tree.Replays.digest_eq {t : Tree} {datatype : NodeId} {flags : Flags}
    (h : t.Replays datatype flags) (token : Token) :
    CDeclarations.digest t datatype flags token =
      CDeclarations.digest t datatype (t.replay datatype) token := by
  have hreplay : (t.replay datatype).forSequence t datatype = flags.forSequence t datatype := by
    rw [h.held, Flags.forSequence]
    split
    · next hunbegun => rw [← h.held, Flags.forSequence, if_pos hunbegun]
    · rfl
  unfold CDeclarations.digest
  rw [hreplay]

/-! ### A parse -/

namespace Parser

variable {p : Parser} {token : Token}

/-- What a specifier leaves as the tree is what its digest does. -/
theorem tree_digestAt (p : Parser) (datatype : NodeId) (token : Token) (within behind : State) :
    (p.digestAt datatype token within behind).tree =
      (digest p.tree datatype p.flags token).tree := by
  unfold digestAt
  dsimp only
  split <;> rfl

/-- A word is digested into the datatype under way. -/
theorem tree_feed_identifier (hs : p.state = .datatype ∨ p.state = .parameters)
    (hk : p.tree.kind? p.place = some .datatype) (hword : token.kind = .identifier) :
    (p.feed token).tree = (digest p.tree p.place p.flags token).tree := by
  have hmark : ∀ c, token.isMark c = false := by
    intro c
    rw [Token.isMark, hword]
    rfl
  -- Both states hand an identifier to the digest; in parameters it is neither a comma
  -- nor a parenthesis.
  rcases hs with hs | hs
  · have hfeed : p.feed token = p.digestAt p.place token .datatype .identifier := by
      rw [feed, hs, hword, handle, hs]
      rfl
    rw [hfeed, tree_digestAt]
  · have hfeed : p.feed token = p.digestAt p.place token .parameters .parameters := by
      rw [feed, hs, hword, handle, hs, onParameters, hmark, hmark, hk]
      rfl
    rw [hfeed, tree_digestAt]

/-- The categories are a function of the tree. Whenever a parse stands at a
datatype that has begun, they are those that the children of the datatype tell,
and whether it has begun or not, the next token is digested as if they were. So
each declaration and each parameter is judged on its own. A datatype names one
type at most, and a tag goes below that one, which was opened by its word. -/
theorem replay_feedAll (kind : UnitKind) (filename : String) (tokens : List Token) :
    let p := (ofUnit kind filename).feedAll tokens
    (p.state = .idle → ∀ token,
      digest (p.tree.addContainer p.place .datatype token) p.tree.size p.flags token =
        digest (p.tree.addContainer p.place .datatype token) p.tree.size ∅ token) ∧
    (p.state = .datatype ∨ p.state = .parameters → p.tree.kind? p.place = some .datatype →
      (p.tree.isUnbegun p.place = false → p.flags = p.tree.replay p.place) ∧
      (∀ token, digest p.tree p.place p.flags token =
        digest p.tree p.place (p.tree.replay p.place) token) ∧
      (p.tree.childrenOfKind p.place .userType).size ≤ 1 ∧
      ∀ token after, (p.tree.replay p.place).judge token = .tag after →
        ∃ u word, p.tree.childrenOfKind p.place .userType = #[u] ∧ p.tree.OpenedBy u word ∧
          (p.feed token).tree = p.tree.addLeaf u .identifier token) := by
  intro p
  have hp : p.Sound := sound_feedAll (sound_ofUnit kind filename) tokens
  constructor
  · intro _ token
    -- In a new datatype no flag is held, whatever was left over.
    have hnew : ∀ flags : Flags,
        flags.forSequence (p.tree.addContainer p.place .datatype token) p.tree.size = ∅ :=
      fun flags => Flags.forSequence_addContainer hp.stem.lt_size flags .datatype token
    unfold digest
    rw [hnew, hnew]
  intro hs hk
  have hupholds : p.Upholds Tree.Replays :=
    (sound_ofUnit kind filename).upholds_feedAll Tree.lasting_replays
      (upholds_ofUnit kind filename) tokens
  have h : p.tree.Replays p.place p.flags := hupholds.elim hs hk
  refine ⟨?_, h.digest_eq, h.size_types_le, ?_⟩
  · intro hbegun
    rw [← h.held, Flags.forSequence, hbegun]
    rfl
  -- The judgement of a tag tells that one is awaited, and by which type.
  · intro token after hj
    obtain ⟨u, word, hu, hopened⟩ := h.awaits (Flags.awaitsTag_of_judge hj)
    have hheld : (p.flags.forSequence p.tree p.place).judge token = .tag after := by
      rw [h.held, hj]
    refine ⟨u, word, (hu.only h.size_types_le).1, hopened, ?_⟩
    rw [tree_feed_identifier hs hk (Flags.word_of_tag hj).1, digest, hheld]
    show p.tree.addLeaf (p.tree.tagParent p.place) .identifier token = _
    rw [hu.tagParent_eq]

/-- In the parameters of `static int f(struct` nothing is left of the words of
the declaration, and the tag goes below the new type. -/
theorem replay_feedAll_parameter :
    let word (text : String) : Token := ⟨.identifier, .nowhere, text⟩
    let p := (ofUnit .source "").feedAll
      [word "static", word "int", word "f", ⟨.singleChar, .nowhere, "("⟩, word "struct"]
    (p.state = .datatype ∨ p.state = .parameters) ∧ p.tree.kind? p.place = some .datatype ∧
      p.tree.isUnbegun p.place = false ∧ p.flags = .composed ∧ p.flags = p.tree.replay p.place := by
  intro word p
  have hs : p.state = .datatype ∨ p.state = .parameters := Or.inr (by decide +kernel)
  have hk : p.tree.kind? p.place = some .datatype := by decide +kernel
  have hbegun : p.tree.isUnbegun p.place = false := by decide +kernel
  exact ⟨hs, hk, hbegun, by decide +kernel, ((replay_feedAll .source "" _).2 hs hk).1 hbegun⟩

end Parser

end CDeclarations
