import CDeclarations.Proofs.Parser.Slots
import CDeclarations.Proofs.Specifier.Records

/-!
# `CDeclarations.Proofs.Parser.Tagging`: where a tag goes

A word that opens a composed type adds a node for the type, and the tag
that has to follow goes below that node. The digester finds it again as
the last type below the datatype. That is the open one, for nothing but
comments can stand between the word and its tag:

* `Tree.AwaitsTag`: the type is open in its datatype, with nothing but
  comments behind it. It is where a tag goes (`AwaitsTag.tagParent_eq`).
* `Flags.awaitsTag_of_part`, `awaitsTag_of_composed`,
  `awaitsTag_of_tag`: when the categories await a tag. Nothing else is
  taken then (`judge_of_awaitsTag`).
* `lasting_awaitsTag`: a datatype holds an open type for as long as its
  categories await a tag. So does the one under way (`Parser.Tagging`),
  whatever token comes (`Sound.tagging_feed`).
-/

set_option autoImplicit false

namespace CDeclarations

/-! ### The categories -/

namespace Flags

variable {flags after s : Flags} {token : Token}

/-- Another category than that of a composed type or of a type's name
neither opens nor closes a composed type. -/
theorem Single.awaitsTag_union (hs : s.Single) (hcomposed : s ≠ composed)
    (hnamed : s ≠ userDefined) (flags : Flags) : (flags ∪ s).awaitsTag = flags.awaitsTag := by
  rw [awaitsTag, awaitsTag, hs.contains_union_of_ne single_composed hcomposed.symm,
    hs.contains_union_of_ne single_userDefined hnamed.symm]

/-- With the name of a type no tag is due. -/
theorem awaitsTag_union_userDefined (flags : Flags) :
    (flags ∪ userDefined).awaitsTag = false := by
  rw [awaitsTag, single_userDefined.contains_union_self, Bool.not_true, Bool.and_false]

/-- A pointer takes qualifiers back, and no type. -/
theorem awaitsTag_diff_qualifier (flags : Flags) :
    (flags \ qualifier).awaitsTag = flags.awaitsTag := by
  rw [awaitsTag, awaitsTag, single_qualifier.contains_diff_of_ne single_composed (by decide),
    single_qualifier.contains_diff_of_ne single_userDefined (by decide)]

/-- A keyword that is a part of a type leaves the question of a tag as it was.
-/
theorem awaitsTag_of_judgeKeyword {keyword : Keyword} {kind : NodeKind}
    (h : flags.judgeKeyword keyword = .part kind after) : after.awaitsTag = flags.awaitsTag := by
  -- A simple word adds its own category, but for the second `long`.
  have hadds : ∀ w : Keyword, w.isSimple = true →
      (flags ∪ w.flag).awaitsTag = flags.awaitsTag := by
    intro w hw
    obtain ⟨-, hnamed, hcomposed⟩ := Keyword.flag_ne hw
    exact w.single_flag.awaitsTag_union hcomposed hnamed flags
  -- One case for each group of words; a composed word is no part.
  cases keyword with
  | storage =>
      simp only [judgeKeyword] at h
      split at h <;> cases h
      exact hadds .storage rfl
  | qualifier =>
      simp only [judgeKeyword] at h
      split at h <;> cases h
      exact hadds .qualifier rfl
  | modifier m =>
      simp only [judgeKeyword] at h
      split at h
      · next added hj =>
        cases h
        rcases Records.eq_of_modifier_judge hj with ⟨rfl, -⟩ | ⟨rfl, -⟩
        · exact hadds (.modifier m) rfl
        · exact single_longLong.awaitsTag_union (by decide) (by decide) flags
      · cases h
  | primitive q =>
      simp only [judgeKeyword] at h
      split at h
      · next added hj =>
        cases h
        rw [Records.eq_of_primitive_judge hj]
        exact hadds (.primitive q) rfl
      · cases h
  | composed word =>
      simp only [judgeKeyword] at h
      split at h <;> cases h

/-- Behind a part of a sequence no tag is due. -/
theorem awaitsTag_of_part {kind : NodeKind} (h : flags.judge token = .part kind after) :
    after.awaitsTag = false := by
  simp only [judge] at h
  split at h
  · cases h
  split at h
  · split at h <;> cases h
  -- From here on no tag is awaited, and no part makes the sequence await one.
  next hawaits =>
  rw [Bool.not_eq_true] at hawaits
  split at h
  · rw [awaitsTag_of_judgeKeyword h, hawaits]
  · simp only [judgeOther] at h
    split at h
    · cases h
      rw [awaitsTag_diff_qualifier, hawaits]
    split at h
    · split at h <;> cases h
      exact awaitsTag_union_userDefined flags
    · cases h

/-- Behind the word of a composed type its tag is due. -/
theorem awaitsTag_of_composed {word : Composed} (h : flags.judge token = .composed word after) :
    after.awaitsTag = true := by
  simp only [judge] at h
  split at h
  · cases h
  split at h
  · split at h <;> cases h
  split at h
  · next keyword _ =>
    cases keyword with
    | composed word' =>
        simp only [judgeKeyword] at h
        split at h
        · cases h
        next hnew =>
        cases h
        rw [Bool.not_eq_true, Bool.or_eq_false_iff] at hnew
        obtain ⟨huntyped, -⟩ := hnew
        -- No type stands in the sequence, and so no name of one.
        have hunnamed : flags.contains userDefined = false := by
          rw [namesType, types, intersects_union, Bool.or_eq_false_iff,
            single_userDefined.intersects_eq] at huntyped
          exact huntyped.2
        rw [awaitsTag, single_composed.contains_union_self,
          single_composed.contains_union_of_ne single_userDefined (by decide), hunnamed]
        rfl
    | _ =>
        simp only [judgeKeyword] at h
        split at h <;> cases h
  · simp only [judgeOther] at h
    split at h
    · cases h
    split at h
    · split at h <;> cases h
    · cases h

/-- Where a tag is due, a token is the tag or is refused. -/
theorem judge_of_awaitsTag (h : flags.awaitsTag = true) (token : Token) :
    (flags.judge token = .tag (flags ∪ userDefined) ∧ token.kind = .identifier ∧
      token.keyword? = none) ∨ ∃ failure, flags.judge token = .refused failure := by
  simp only [judge, h, if_true]
  split
  · exact Or.inr ⟨_, rfl⟩
  split
  · next hword => exact Or.inl ⟨rfl, hword⟩
  · exact Or.inr ⟨_, rfl⟩

/-- A token that is neither the tag nor refused comes where no tag is
due. -/
theorem awaitsTag_eq_false_of_judge {verdict : Verdict} (hj : flags.judge token = verdict)
    (htag : ∀ after, verdict ≠ .tag after) (hrefused : ∀ failure, verdict ≠ .refused failure) :
    flags.awaitsTag = false := by
  rw [Bool.eq_false_iff]
  intro hawaits
  rcases judge_of_awaitsTag hawaits token with ⟨h, -⟩ | ⟨failure, h⟩
  · exact htag _ (hj.symm.trans h)
  · exact hrefused _ (hj.symm.trans h)

/-- The tag of a composed type is no reserved word. -/
theorem word_of_tag (h : flags.judge token = .tag after) :
    token.kind = .identifier ∧ token.keyword? = none := by
  rcases judge_of_awaitsTag (awaitsTag_of_judge h) token with ⟨-, hword⟩ | ⟨failure, hrefused⟩
  · exact hword
  · cases h.symm.trans hrefused

/-- The declared name is no reserved word. -/
theorem word_of_name (h : flags.judge token = .name) :
    token.kind = .identifier ∧ token.keyword? = none := by
  have hawaits := awaitsTag_eq_false_of_judge h nofun nofun
  simp only [judge, hawaits, Bool.false_eq_true, if_false] at h
  -- A mark, a keyword, or a word that may be a name.
  split at h
  · cases h
  split at h
  · next keyword _ =>
    cases keyword <;> simp only [judgeKeyword] at h <;> split at h <;> cases h
  · next hkeyword =>
    simp only [judgeOther] at h
    split at h
    · cases h
    split at h
    · next hidentifier => exact ⟨hidentifier, hkeyword⟩
    · cases h

/-- Behind a tag no tag is due. -/
theorem awaitsTag_of_tag (h : flags.judge token = .tag after) : after.awaitsTag = false := by
  rcases judge_of_awaitsTag (awaitsTag_of_judge h) token with ⟨htag, -⟩ | ⟨failure, hrefused⟩
  · rw [htag] at h
    cases h
    exact awaitsTag_union_userDefined flags
  · rw [hrefused] at h
    cases h

end Flags

/-! ### The open type -/

namespace Tree

variable {t : Tree} {datatype u : NodeId}

/-- The type `u` is open in the datatype: it carries no text, and
nothing but comments stands behind it. -/
structure AwaitsTag (t : Tree) (datatype u : NodeId) : Prop where
  node : ∃ n, t.nodes[u]? = some n ∧ n.kind = .userType ∧ n.parent = some datatype ∧
    n.payload = none
  last : ∃ before after, (t.children datatype).toList = before ++ u :: after ∧
    ∀ c ∈ after, (t.kind? c).any NodeKind.isComment = true

/-- The type that awaits a tag is below the datatype. -/
theorem AwaitsTag.holds (h : t.AwaitsTag datatype u) : t.Holds u .userType datatype := by
  obtain ⟨n, hn, hkind, hparent, -⟩ := h.node
  exact ⟨n, hn, hkind, hparent⟩

/-- The open type is the last one that its datatype names. -/
theorem AwaitsTag.types (h : t.AwaitsTag datatype u) :
    ∃ before after, (t.children datatype).toList = before ++ u :: after ∧
      (∀ c ∈ after, (t.kind? c).any NodeKind.isComment = true) ∧
      (t.childrenOfKind datatype .userType).toList =
        before.filter (fun c => t.kind? c = some .userType) ++ [u] := by
  obtain ⟨before, after, hchildren, hcomments⟩ := h.last
  let isType : NodeId → Bool := fun c => t.kind? c = some .userType
  -- Only comments stand behind the type, so it is the last of its kind.
  have hno : after.filter isType = [] := by
    rw [List.filter_eq_nil_iff]
    intro c hc htype
    have hcomment := hcomments c hc
    rw [of_decide_eq_true htype] at hcomment
    cases hcomment
  have hyes : isType u = true := decide_eq_true h.holds.kind?
  refine ⟨before, after, hchildren, hcomments, ?_⟩
  rw [childrenOfKind, Array.toList_filter, hchildren, List.filter_append]
  show _ ++ (u :: after).filter isType = _
  rw [List.filter_cons_of_pos hyes, hno]

/-- The open type is where a tag goes. -/
theorem AwaitsTag.tagParent_eq (h : t.AwaitsTag datatype u) : t.tagParent datatype = u := by
  obtain ⟨before, after, -, -, htypes⟩ := h.types
  rw [tagParent, ← Array.getLast?_toList, htypes, List.getLast?_concat, Option.getD_some]

section Add

variable {parent : NodeId} {kind : NodeKind} {position : Position}
  {payload diagnostic : Option String}

/-- A comment in the datatype leaves the type open, and so does whatever
is added elsewhere. -/
theorem AwaitsTag.add (ht : t.Linked) (h : t.AwaitsTag datatype u) (hlt : parent < t.size)
    (hk : parent = datatype → kind.isComment = true) :
    (t.add parent kind position payload diagnostic).AwaitsTag datatype u where
  node := by
    obtain ⟨n, hn, hkind, hparent, hpayload⟩ := h.node
    obtain ⟨m, hm, hnm⟩ := grows_add hlt u n hn
    exact ⟨m, hm, hnm.kind.trans hkind, hnm.parent.trans hparent, hnm.payload.trans hpayload⟩
  last := by
    obtain ⟨before, after, hchildren, hcomments⟩ := h.last
    -- The children behind the type keep their kinds.
    have hold : ∀ c ∈ after,
        ((t.add parent kind position payload diagnostic).kind? c).any NodeKind.isComment =
          true := by
      intro c hc
      have hmem : c ∈ t.children datatype := by
        rw [← Array.mem_toList_iff, hchildren]
        exact List.mem_append_right before (List.mem_cons_of_mem u hc)
      obtain ⟨n, hn, -⟩ := ht.child hmem
      rw [kind?_add kind position payload diagnostic hlt,
        if_neg (Nat.ne_of_lt (lt_size_of_getElem? hn))]
      exact hcomments c hc
    rw [children_add kind position payload diagnostic hlt]
    split
    · next hdatatype =>
      refine ⟨before, after ++ [t.size], ?_, ?_⟩
      · rw [Array.toList_push, hchildren, List.append_assoc, List.cons_append]
      · intro c hc
        rcases List.mem_append.1 hc with hc | hc
        · exact hold c hc
        · rw [List.mem_singleton.1 hc, kind?_add kind position payload diagnostic hlt, if_pos rfl,
            Option.any_some, hk hdatatype.symm]
    · exact ⟨before, after, hchildren, hold⟩

/-- A type without text that is added to the datatype is open in it. -/
theorem awaitsTag_add (hlt : datatype < t.size) (position : Position)
    (diagnostic : Option String) :
    (t.add datatype .userType position none diagnostic).AwaitsTag datatype t.size where
  node := ⟨_, getElem?_add_new .userType position none diagnostic hlt, rfl, rfl, rfl⟩
  last := by
    refine ⟨(t.children datatype).toList, [], ?_, nofun⟩
    rw [children_add .userType position none diagnostic hlt, if_pos rfl, Array.toList_push]

end Add

/-- The node of a composed type is open with its marker in it. -/
theorem awaitsTag_composed (ht : t.Regular) (hd : t.Stem datatype) (word : Composed)
    (token : Token) :
    ((t.addContainer datatype .userType token).addLeaf t.size word.nodeKind token).AwaitsTag
      datatype t.size := by
  have hnew : (t.addContainer datatype .userType token).AwaitsTag datatype t.size :=
    awaitsTag_add hd.lt_size token.position none
  have hsize : t.size < (t.addContainer datatype .userType token).size := by
    rw [size_addContainer]
    exact Nat.lt_succ_self _
  exact hnew.add (ht.add hd).toLinked hsize fun heq => absurd heq (Nat.ne_of_gt hd.lt_size)

end Tree

/-- A new datatype awaits no tag. -/
theorem Flags.awaitsTag_addContainer {t : Tree} {parent : NodeId} (h : parent < t.size)
    (flags : Flags) (kind : NodeKind) (token : Token) :
    (flags.forSequence (t.addContainer parent kind token) t.size).awaitsTag = false := by
  rw [Flags.forSequence_addContainer h]
  decide

/-- A datatype keeps an open type for as long as its categories await a tag. -/
theorem lasting_awaitsTag : Lasting fun t datatype flags =>
    (flags.forSequence t datatype).awaitsTag = true → ∃ u, t.AwaitsTag datatype u where
  container h flags token hawaits := by
    rw [Flags.awaitsTag_addContainer h] at hawaits
    cases hawaits
  comment ht hd h hk token hawaits := by
    rw [Flags.forSequence_addLeaf_comment ht.toLinked hd.lt_size hk] at hawaits
    obtain ⟨u, hu⟩ := h hawaits
    exact ⟨u, hu.add ht.toLinked hd.lt_size fun _ => hk⟩
  digest {t datatype flags token id} ht hd h houtcome hawaits := by
    have hreg := (digest_regular_grows ht hd flags token).1
    -- The datatype has begun, so that its categories stay.
    rw [Flags.forSequence_of_begun hreg.toLinked (begun_digest ht hd houtcome)] at hawaits
    cases hj : (flags.forSequence t datatype).judge token with
    | part kind after =>
        simp only [digest, hj] at hawaits
        rw [Flags.awaitsTag_of_part hj] at hawaits
        cases hawaits
    | composed word after =>
        simp only [digest, hj]
        exact ⟨_, Tree.awaitsTag_composed ht hd word token⟩
    | tag after =>
        simp only [digest, hj] at hawaits
        rw [Flags.awaitsTag_of_tag hj] at hawaits
        cases hawaits
    | name => simp [digest, hj] at houtcome
    | refused failure => simp [digest, hj] at houtcome

/-! ### The invariant -/

/-- In the states that digest at a datatype, an open type stands in it
whenever a tag is due. -/
def Tree.Tags (t : Tree) (flags : Flags) (place : NodeId) : State → Prop
  | .datatype | .parameters => t.kind? place = some .datatype →
      (flags.forSequence t place).awaitsTag = true → ∃ u, t.AwaitsTag place u
  | _ => True

namespace Parser

/-- A datatype under way holds an open type whenever its categories
await a tag. -/
def Tagging (p : Parser) : Prop :=
  p.tree.Tags p.flags p.place p.state

/-- A new parse awaits no tag. -/
theorem tagging_ofUnit (kind : UnitKind) (filename : String) : (ofUnit kind filename).Tagging :=
  trivial

variable {p : Parser}

/-- The agreement is a property of the sequence under way. -/
theorem tagging_iff_upholds :
    p.Tagging ↔ p.Upholds fun t datatype flags =>
      (flags.forSequence t datatype).awaitsTag = true → ∃ u, t.AwaitsTag datatype u := by
  rw [Tagging, Upholds]
  cases p.state <;> exact Iff.rfl

/-- Every token leaves an open type where the categories await a tag. -/
theorem Sound.tagging_feed (hp : p.Sound) (h : p.Tagging) (token : Token) :
    (p.feed token).Tagging :=
  tagging_iff_upholds.2 (hp.upholds_feed lasting_awaitsTag (tagging_iff_upholds.1 h) token)

/-- Where the digester takes a token as a tag, it finds the open type
again. -/
theorem Tagging.awaitsTag_tagParent (h : p.Tagging)
    (hs : p.state = .datatype ∨ p.state = .parameters)
    (hk : p.tree.kind? p.place = some .datatype)
    (hawaits : (p.flags.forSequence p.tree p.place).awaitsTag = true) :
    p.tree.AwaitsTag p.place (p.tree.tagParent p.place) := by
  obtain ⟨u, hu⟩ := (tagging_iff_upholds.1 h).elim hs hk hawaits
  rwa [hu.tagParent_eq]

end Parser

end CDeclarations
