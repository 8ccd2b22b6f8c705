import CDeclarations.Proofs.Parser.Tagging
import CDeclarations.Proofs.Specifier.UnderWay
import Mathlib.Data.Bool.Basic
import Mathlib.Data.List.Basic

/-!
# `CDeclarations.Proofs.Specifier.Contradictions`: what no sequence holds

Words that contradict each other never stand in one sequence, in whichever
order they come and whatever is refused between them. The modifiers and the
types are checked against each other by different rules; that the rules are
symmetric is what makes the agreement of all pairs of words an invariant.

* `Flags.Consistent`: the contradictions, spelled out. They follow from the
  agreement of all pairs of words, `Flags.Coherent`, which each token keeps
  (`Coherent.judge`).
* `Flags.Accounts`: the categories account for the nodes of the datatype. So
  no part stands there twice that the rules allow once.
* `Sequence.consistent_step_run`: so it is behind each token of a sequence,
  from whichever categories it starts. The declared name comes where a type
  is named and no tag is due.
-/

set_option autoImplicit false

namespace CDeclarations

/-! ### Categories that agree -/

namespace Keyword

/-- The words of a built-in type. -/
def isTypeWord : Keyword → Bool
  | .modifier _ | .primitive _ => true
  | _ => false

/-- A type word is a simple word. -/
theorem isSimple_of_isTypeWord {w : Keyword} (hw : w.isTypeWord = true) : w.isSimple = true := by
  cases w <;> first | rfl | cases hw

/-- It does not matter which of two words comes first. -/
theorem conflicts_comm (w v : Keyword) : w.conflicts v = v.conflicts w := by
  rw [Bool.eq_iff_iff, ← not_iff_not, Bool.not_eq_true, Bool.not_eq_true]
  exact ⟨fun h : w.Agrees v => h.symm, fun h : v.Agrees w => h.symm⟩

end Keyword

namespace Flags

/-- The set holds no two categories that contradict each other. -/
structure Consistent (f : Flags) : Prop where
  signs : ¬(f.contains .signed = true ∧ f.contains .unsigned = true)
  lengths : ¬(f.contains .short = true ∧ f.contains .long = true)
  longLong : f.contains .longLong = true → f.contains .long = true
  void : f.contains .void = true → ∀ m : Modifier, f.contains m.flag = false
  float : f.contains .float = true → ∀ m : Modifier, f.contains m.flag = false
  char : f.contains .char = true → f.contains .short = false ∧ f.contains .long = false
  double : f.contains .double = true →
    f.contains .signed = false ∧ f.contains .unsigned = false ∧ f.contains .short = false
  /-- The name of a type stands alone, and so does a composed type. -/
  named : f.contains .userDefined = true ∨ f.contains .composed = true →
    (∀ m : Modifier, f.contains m.flag = false) ∧ f.contains .longLong = false ∧
      ∀ p : Primitive, f.contains p.flag = false

/-- Two words of the set agree, and where it holds the name of a type or a
composed type it holds no word of a built-in one. -/
structure Coherent (f : Flags) : Prop where
  words : ∀ {w v : Keyword}, w.isSimple = true → v.isSimple = true → w ≠ v →
    w.conflicts v = true → f.contains w.flag = true → f.contains v.flag = false
  longLong : f.contains .longLong = true → f.contains .long = true
  named : f.contains .userDefined = true ∨ f.contains .composed = true →
    ∀ w : Keyword, w.isTypeWord = true → f.contains w.flag = false

variable {f s : Flags}

namespace Coherent

/-- A base type excludes the modifiers it does not take. -/
theorem modifier (h : f.Coherent) {p : Primitive} {m : Modifier} (htakes : p.takes m = false)
    (hp : f.contains p.flag = true) : f.contains m.flag = false := by
  refine h.words (w := .primitive p) (v := .modifier m) rfl rfl nofun ?_ hp
  rw [Keyword.conflicts, htakes, Bool.not_false]

/-- Two modifiers that conflict are not held together. -/
theorem conflict (h : f.Coherent) (m m' : Modifier) (hne : m ≠ m')
    (hconflicts : m.conflicts m' = true) :
    ¬(f.contains m.flag = true ∧ f.contains m'.flag = true) := by
  rintro ⟨hm, hm'⟩
  have hfalse : f.contains m'.flag = false :=
    h.words (w := .modifier m) (v := .modifier m') rfl rfl
      (fun heq => hne (Keyword.modifier.inj heq)) hconflicts hm
  exact Bool.eq_false_iff.1 hfalse hm'

/-- Coherent flags are consistent: each exclusion is a conflict between two
words. -/
theorem consistent (h : f.Coherent) : f.Consistent where
  signs := h.conflict .signed .unsigned nofun rfl
  lengths := h.conflict .short .long nofun rfl
  longLong := h.longLong
  void hv _ := h.modifier (p := .void) rfl hv
  float hf _ := h.modifier (p := .float) rfl hf
  char hc := ⟨h.modifier (p := .char) (m := .short) rfl hc,
    h.modifier (p := .char) (m := .long) rfl hc⟩
  double hd := ⟨h.modifier (p := .double) (m := .signed) rfl hd,
    h.modifier (p := .double) (m := .unsigned) rfl hd,
    h.modifier (p := .double) (m := .short) rfl hd⟩
  named hnamed := by
    have hwords := h.named hnamed
    refine ⟨fun m => hwords (.modifier m) rfl, ?_, fun p => hwords (.primitive p) rfl⟩
    rw [Bool.eq_false_iff]
    intro hlong
    exact Bool.eq_false_iff.1 (hwords (.modifier .long) rfl) (h.longLong hlong)

/-- Empty flags are coherent. -/
theorem empty : (∅ : Flags).Coherent where
  words {w _} _ _ _ _ hw := Bool.noConfusion (w.single_flag.contains_empty.symm.trans hw)
  longLong h := Bool.noConfusion (single_longLong.contains_empty.symm.trans h)
  named _ w _ := w.single_flag.contains_empty

/-- Behind a pointer a qualifier may stand again, and nothing else changes. -/
theorem diff_qualifier (h : f.Coherent) : (f \ qualifier).Coherent := by
  have hheld : ∀ {x : Flags}, x.Single → (f \ qualifier).contains x = true →
      f.contains x = true := fun hx hheld => ((single_qualifier.contains_diff hx f).1 hheld).1
  have hnone : ∀ {x : Flags}, x.Single → f.contains x = false →
      (f \ qualifier).contains x = false :=
    fun hx hnone => Bool.eq_false_iff.2 fun hheld' => Bool.eq_false_iff.1 hnone (hheld hx hheld')
  exact {
    words := fun {w v} hw hv hne hconflicts hheld' => hnone v.single_flag
      (h.words hw hv hne hconflicts (hheld w.single_flag hheld'))
    longLong := fun hlong => (single_qualifier.contains_diff (Modifier.single_flag .long) f).2
      ⟨h.longLong (hheld single_longLong hlong), by decide⟩
    named := fun hnamed w hw => hnone w.single_flag
      (h.named (hnamed.imp (hheld single_userDefined) (hheld single_composed)) w hw) }

/-- A word that agrees with those that are held. -/
theorem union_word (h : f.Coherent) {w : Keyword} (hw : w.isSimple = true)
    (hagrees : ∀ v : Keyword, v.isSimple = true → v ≠ w → v.conflicts w = true →
      f.contains v.flag = false)
    (hunnamed : w.isTypeWord = true →
      f.contains userDefined = false ∧ f.contains composed = false) :
    (f ∪ w.flag).Coherent := by
  obtain ⟨hlong, huser, hcomposed⟩ := Keyword.flag_ne hw
  have hold : ∀ {v : Keyword}, v.isSimple = true →
      ((f ∪ w.flag).contains v.flag = true ↔ f.contains v.flag = true ∨ v = w) := by
    intro v hv
    rw [w.single_flag.contains_union v.single_flag, Keyword.flag_inj hv hw]
  have hother : ∀ {x : Flags}, x.Single → w.flag ≠ x → (f ∪ w.flag).contains x = true →
      f.contains x = true :=
    fun hx hne hheld => ((w.single_flag.contains_union hx f).1 hheld).resolve_right (Ne.symm hne)
  refine ⟨?_, ?_, ?_⟩
  · intro a b ha hb hne hconflicts hheld
    rw [Bool.eq_false_iff]
    intro hheld'
    -- Of two words that are held one is the new word, or neither is.
    rcases (hold ha).1 hheld with hfa | rfl
    · rcases (hold hb).1 hheld' with hfb | rfl
      · exact Bool.eq_false_iff.1 (h.words ha hb hne hconflicts hfa) hfb
      · exact Bool.eq_false_iff.1 (hagrees a ha hne hconflicts) hfa
    · rcases (hold hb).1 hheld' with hfb | rfl
      · rw [Keyword.conflicts_comm] at hconflicts
        exact Bool.eq_false_iff.1 (hagrees b hb hne.symm hconflicts) hfb
      · exact hne rfl
  · intro hheld
    have hfirst := h.longLong (hother single_longLong hlong hheld)
    exact (hold (v := .modifier .long) rfl).2 (Or.inl hfirst)
  · intro hnamed v hv
    have hnamed' := hnamed.imp (hother single_userDefined huser) (hother single_composed hcomposed)
    rw [Bool.eq_false_iff]
    intro hheld
    rcases (hold (Keyword.isSimple_of_isTypeWord hv)).1 hheld with hheld | rfl
    · exact Bool.eq_false_iff.1 (h.named hnamed' v hv) hheld
    · obtain ⟨huser', hcomposed'⟩ := hunnamed hv
      rcases hnamed' with hnamed' | hnamed'
      · exact Bool.eq_false_iff.1 huser' hnamed'
      · exact Bool.eq_false_iff.1 hcomposed' hnamed'

/-- A category of its own, which stands for no simple word. -/
theorem union_other (h : f.Coherent) (hs : s.Single)
    (hother : ∀ w : Keyword, w.isSimple = true → w.flag ≠ s)
    (hlong : s = Flags.longLong → f.contains .long = true)
    (hnamed : s ≠ Flags.longLong → ∀ w : Keyword, w.isTypeWord = true → f.contains w.flag = false) :
    (f ∪ s).Coherent := by
  have hold : ∀ {w : Keyword}, w.isSimple = true →
      (f ∪ s).contains w.flag = f.contains w.flag :=
    fun hw => hs.contains_union_of_ne (Keyword.single_flag _) (hother _ hw) f
  refine ⟨?_, ?_, ?_⟩
  · intro a b ha hb hne hconflicts hheld
    rw [hold ha] at hheld
    rw [hold hb]
    exact h.words ha hb hne hconflicts hheld
  · intro hheld
    refine (hold (w := .modifier .long) rfl).trans ?_
    rcases (hs.contains_union single_longLong f).1 hheld with hheld | heq
    · exact h.longLong hheld
    · exact hlong heq.symm
  · intro hheld w hw
    rw [hold (Keyword.isSimple_of_isTypeWord hw)]
    -- The second `long` names no type; any other such category does.
    by_cases hs' : s = Flags.longLong
    · subst hs'
      refine h.named (hheld.imp ?_ ?_) w hw
      · exact fun hu => ((hs.contains_union single_userDefined f).1 hu).resolve_right (by decide)
      · exact fun hc => ((hs.contains_union single_composed f).1 hc).resolve_right (by decide)
    · exact hnamed hs' w hw

end Coherent

/-! ### What one verdict keeps -/

/-- A modifier is taken behind words that it agrees with. -/
theorem modifier_judge_agrees {m : Modifier} (hj : m.judge f = .ok m.flag)
    (hnew : f.contains m.flag = false) :
    f.contains userDefined = false ∧ ∀ v : Keyword, v.isSimple = true → v ≠ .modifier m →
      v.conflicts (.modifier m) = true → f.contains v.flag = false := by
  have hguards : ∃ added, m.judge f = .ok added := ⟨_, hj⟩
  rw [Modifier.judge, hnew, if_neg Bool.false_ne_true] at hguards
  simp only [exists_ite_error, Bool.not_eq_true] at hguards
  -- The guards that were passed, in the order of the judgement.
  obtain ⟨huser, hvoid, hchar, hfloat, hdouble, hsigns, hlengths, -⟩ := hguards
  refine ⟨huser, ?_⟩
  intro v hv hne hconflicts
  -- Each pair of words that conflicts is excluded by one of them.
  cases v with
  | storage | qualifier | composed _ => cases hconflicts
  | modifier a =>
      cases m <;> cases a <;>
        simp_all [Keyword.conflicts, Modifier.conflicts, Keyword.flag, Modifier.flag]
  | primitive p =>
      cases m <;> cases p <;>
        simp_all [Keyword.conflicts, Primitive.takes, Keyword.flag, Primitive.flag]

/-- A built-in type is taken behind words that it agrees with. -/
theorem primitive_judge_agrees {p : Primitive} (hj : p.judge f = .ok p.flag) :
    f.contains p.flag = false ∧ f.contains userDefined = false ∧
      ∀ v : Keyword, v.isSimple = true → v ≠ .primitive p → v.conflicts (.primitive p) = true →
        f.contains v.flag = false := by
  have hguards : ∃ added, p.judge f = .ok added := ⟨_, hj⟩
  rw [Primitive.judge] at hguards
  simp only [exists_ite_error, Bool.not_eq_true] at hguards
  obtain ⟨hnew, huser, hvoid, hchar, hfloat, hdouble, -⟩ := hguards
  refine ⟨hnew, huser, ?_⟩
  intro v hv hne hconflicts
  cases v with
  | storage | qualifier | composed _ => cases hconflicts
  | modifier m =>
      -- A test for several modifiers at once is a test for each of them.
      have hmeets : ∀ m : Modifier, f.intersects m.flag = f.contains m.flag :=
        fun m => m.single_flag.intersects_eq f
      have hsigned := hmeets .signed
      have hunsigned := hmeets .unsigned
      have hshort := hmeets .short
      have hlong := hmeets .long
      simp only [Modifier.flag] at hsigned hunsigned hshort hlong
      simp only [modifiers, intersects_union, hsigned, hunsigned, hshort, hlong]
        at hvoid hchar hfloat hdouble
      cases p <;> cases m <;>
        simp_all [Keyword.conflicts, Primitive.takes, Keyword.flag, Modifier.flag]
  | primitive q =>
      exact absurd (congrArg Keyword.primitive (of_decide_eq_true hconflicts)) hne

/-- Flags that name no type hold no type word. -/
theorem contains_eq_false_of_namesType (h : f.namesType = false) :
    f.contains userDefined = false ∧
      ∀ w : Keyword, w.isTypeWord = true → f.contains w.flag = false := by
  refine ⟨single_userDefined.contains_eq_false (by decide) h, ?_⟩
  intro w hw
  refine w.single_flag.contains_eq_false ?_ h
  cases w with
  | storage | qualifier | composed _ => cases hw
  | modifier m => cases m <;> decide
  | primitive p => cases p <;> decide

/-- Without a word of a built-in type and the name of another one, no type is
named. -/
theorem namesType_eq_false (hmodifier : ∀ m : Modifier, f.contains m.flag = false)
    (hlong : f.contains longLong = false) (hprimitive : ∀ p : Primitive, f.contains p.flag = false)
    (huser : f.contains userDefined = false) : f.namesType = false := by
  have hm : ∀ m : Modifier, f.intersects m.flag = false :=
    fun m => (m.single_flag.intersects_eq f).trans (hmodifier m)
  have hp : ∀ p : Primitive, f.intersects p.flag = false :=
    fun p => (p.single_flag.intersects_eq f).trans (hprimitive p)
  have hmodifiers : f.intersects modifiers = false := by
    simp only [modifiers, intersects_union, Bool.or_eq_false_iff]
    exact ⟨⟨⟨hm .signed, hm .unsigned⟩, hm .short⟩, hm .long⟩
  simp only [namesType, types, intersects_union, hmodifiers, single_longLong.intersects_eq, hlong,
    single_userDefined.intersects_eq, huser, Bool.or_eq_false_iff]
  exact ⟨⟨⟨⟨⟨⟨⟨trivial, trivial⟩, hp .void⟩, hp .char⟩, hp .int⟩, hp .float⟩, hp .double⟩, trivial⟩

/-- Where no tag is due, a set without the name of a type is one without a
composed type. -/
theorem contains_composed_eq_false (hawaits : f.awaitsTag = false)
    (huser : f.contains userDefined = false) : f.contains composed = false := by
  rw [awaitsTag, huser, Bool.not_false, Bool.and_true] at hawaits
  exact hawaits

/-- Whatever token is taken, the flags stay coherent. -/
theorem Coherent.takes (h : f.Coherent) {token : Token} {verdict : Verdict}
    (ht : f.Takes token verdict)
    (hawaits : (∀ after, verdict ≠ .tag after) → f.awaitsTag = false) :
    (verdict.behind f).Coherent := by
  -- One case for each way to take a token; a word is added with what its judgement
  -- excludes.
  cases ht with
  | storage _ hnew =>
      refine h.union_word (w := .storage) rfl ?_ nofun
      intro v hv hne hconflicts
      cases v with
      | storage => exact hnew
      | _ => cases hconflicts
  | qualifier _ hnew =>
      refine h.union_word (w := .qualifier) rfl ?_ nofun
      intro v hv hne hconflicts
      cases v with
      | qualifier => exact hnew
      | _ => cases hconflicts
  | @modifier m added _ hadded =>
      rcases Records.eq_of_modifier_judge hadded with ⟨rfl, hnew⟩ | ⟨rfl, rfl, hlong⟩
      · obtain ⟨huser, hagrees⟩ := modifier_judge_agrees hadded hnew
        exact h.union_word (w := .modifier m) rfl hagrees fun _ =>
          ⟨huser, contains_composed_eq_false (hawaits nofun) huser⟩
      · exact h.union_other single_longLong (fun w hw => (Keyword.flag_ne hw).1) (fun _ => hlong)
          fun hne => absurd rfl hne
  | @primitive p _ hadded =>
      obtain ⟨-, huser, hagrees⟩ := primitive_judge_agrees hadded
      exact h.union_word (w := .primitive p) rfl hagrees fun _ =>
        ⟨huser, contains_composed_eq_false (hawaits nofun) huser⟩
  | composed _ huntyped _ =>
      exact h.union_other single_composed (fun w hw => (Keyword.flag_ne hw).2.2)
        (fun heq => absurd heq (by decide)) fun _ => (contains_eq_false_of_namesType huntyped).2
  | pointer _ => exact h.diff_qualifier
  | typeName _ _ huntyped =>
      exact h.union_other single_userDefined (fun w hw => (Keyword.flag_ne hw).2.1)
        (fun heq => absurd heq (by decide)) fun _ => (contains_eq_false_of_namesType huntyped).2
  | tag _ _ hopen =>
      rw [awaitsTag, Bool.and_eq_true] at hopen
      exact h.union_other single_userDefined (fun w hw => (Keyword.flag_ne hw).2.1)
        (fun heq => absurd heq (by decide)) fun _ => h.named (Or.inr hopen.1)
  | name _ _ _ => exact h

/-- A token keeps the categories in agreement, whatever it is. -/
theorem Coherent.judge (h : f.Coherent) (token : Token) :
    ((f.judge token).behind f).Coherent := by
  cases hj : f.judge token with
  | refused failure => exact h
  | tag after => exact h.takes (takes_of_judge hj nofun) fun hne => absurd rfl (hne after)
  | _ =>
    exact h.takes (takes_of_judge hj nofun) fun _ => awaitsTag_eq_false_of_judge hj nofun nofun

end Flags

/-! ### The nodes of a datatype -/

namespace Tree

/-- The kind and the text of each child, in their order. -/
def parts (t : Tree) (id : NodeId) : List (NodeKind × Option String) :=
  (t.children id).toList.filterMap fun c => t.nodes[c]?.map fun n => (n.kind, n.payload)

variable {t : Tree} {parent : NodeId} {kind : NodeKind} {position : Position}
  {payload diagnostic : Option String}

/-- A node adds itself to the parts of its parent. -/
theorem parts_add (ht : t.Closed) (h : parent < t.size) (id : NodeId) :
    (t.add parent kind position payload diagnostic).parts id =
      if id = parent then t.parts id ++ [(kind, payload)] else t.parts id := by
  -- The children that were there are the same parts as before.
  have hold : (t.children id).toList.filterMap (fun c =>
      (t.add parent kind position payload diagnostic).nodes[c]?.map fun n => (n.kind, n.payload)) =
      t.parts id := by
    apply List.filterMap_congr
    intro c hc
    rw [getElem?_add kind position payload diagnostic h,
      if_neg (Nat.ne_of_lt (ht.child (Array.mem_toList_iff.1 hc))), Option.map_map]
    congr 1
    funext n
    rw [Function.comp_apply]
    split <;> rfl
  have hnew := getElem?_add_new kind position payload diagnostic h
  rw [parts, children_add kind position payload diagnostic h]
  split
  · rw [Array.toList_push, List.filterMap_append, hold]
    simp [hnew]
  · exact hold

/-- An unbegun datatype holds nothing but comments. -/
theorem isComment_of_mem_parts {datatype : NodeId} (h : t.isUnbegun datatype = true)
    {part : NodeKind × Option String} (hmem : part ∈ t.parts datatype) :
    part.1.isComment = true := by
  obtain ⟨c, hc, hpart⟩ := List.mem_filterMap.1 hmem
  obtain ⟨n, hn, rfl⟩ := Option.map_eq_some_iff.1 hpart
  have hcomment := Array.all_eq_true'.1 h c (Array.mem_toList_iff.1 hc)
  rwa [kind?, hn] at hcomment

end Tree

/-- A word that is held stays when a category is added. -/
theorem Flags.Single.keeps {f s : Flags} (hs : s.Single) (w : Keyword)
    (h : f.contains w.flag = true) : (f ∪ s).contains w.flag = true :=
  (hs.contains_union w.single_flag f).2 (Or.inl h)

/-- The categories account for the parts: a storage specifier and each
built-in type stand there once and are held, and so does the qualifier behind
the last pointer. -/
structure Flags.Accounts (f : Flags) (parts : List (NodeKind × Option String)) : Prop where
  specifier : parts.countP (·.1 = .specifier) ≤ (f.contains .storage).toNat
  qualifier : ∀ {segment : List (NodeKind × Option String)}, segment <:+: parts →
    (∀ part ∈ segment, part.1 ≠ .pointer) → segment.countP (·.1 = .qualifier) ≤ 1
  last : ∀ {segment : List (NodeKind × Option String)}, segment <:+ parts →
    (∀ part ∈ segment, part.1 ≠ .pointer) →
    segment.countP (·.1 = .qualifier) ≤ (f.contains .qualifier).toNat
  primitive : ∀ word, parts.count (.primitiveType, some word) ≤ 1
  word : ∀ {word : String}, (.primitiveType, some word) ∈ parts →
    ∃ p, Keyword.ofWord? word = some (.primitive p) ∧ f.contains p.flag = true

namespace Flags.Accounts

variable {f f' : Flags} {parts : List (NodeKind × Option String)}
  {part : NodeKind × Option String}

/-- Comments alone are accounted for by any flags. -/
theorem of_comments (h : ∀ part ∈ parts, part.1.isComment = true) (f : Flags) :
    f.Accounts parts := by
  have hnone : ∀ {segment : List (NodeKind × Option String)} {kind : NodeKind},
      segment ⊆ parts → kind.isComment = false → segment.countP (·.1 = kind) = 0 := by
    intro segment kind hsub hkind
    rw [List.countP_eq_zero]
    intro part hmem heq
    have hcomment := h part (hsub hmem)
    rw [of_decide_eq_true heq, hkind] at hcomment
    cases hcomment
  have hnotype : ∀ word, (NodeKind.primitiveType, some word) ∉ parts :=
    fun word hmem => Bool.noConfusion (h _ hmem)
  exact {
    specifier := by rw [hnone (List.Subset.refl parts) rfl]; exact Nat.zero_le _
    qualifier := fun hinfix _ => by rw [hnone hinfix.subset rfl]; exact Nat.zero_le _
    last := fun hsuffix _ => by rw [hnone hsuffix.subset rfl]; exact Nat.zero_le _
    primitive := fun word => by rw [List.count_eq_zero.2 (hnotype word)]; exact Nat.zero_le _
    word := fun hmem => absurd hmem (hnotype _) }

/-- More categories account for the same parts. -/
theorem mono (h : f.Accounts parts)
    (hmono : ∀ w : Keyword, f.contains w.flag = true → f'.contains w.flag = true) :
    f'.Accounts parts where
  specifier := Nat.le_trans h.specifier (Bool.toNat_le_toNat (hmono .storage))
  qualifier := h.qualifier
  last hsuffix hfree :=
    Nat.le_trans (h.last hsuffix hfree) (Bool.toNat_le_toNat (hmono .qualifier))
  primitive := h.primitive
  word hmem := by
    obtain ⟨p, hp, hheld⟩ := h.word hmem
    exact ⟨p, hp, hmono (.primitive p) hheld⟩

/-- The qualifiers of a stretch that ends with one more part. -/
theorem countP_qualifier_le {bound : Nat} {segment : List (NodeKind × Option String)}
    (hlast : ∀ {segment : List (NodeKind × Option String)}, segment <:+ parts →
      (∀ part ∈ segment, part.1 ≠ .pointer) → segment.countP (·.1 = .qualifier) ≤ bound)
    (hsuffix : segment <:+ parts ++ [part]) (hfree : ∀ part ∈ segment, part.1 ≠ .pointer) :
    segment.countP (·.1 = .qualifier) ≤ bound + if part.1 = .qualifier then 1 else 0 := by
  rcases List.suffix_concat_iff.1 hsuffix with rfl | ⟨before, rfl, hbefore⟩
  · exact Nat.zero_le _
  · rw [List.countP_append, List.countP_singleton]
    have hle := hlast hbefore fun part hmem => hfree part (List.mem_append_left _ hmem)
    simp only [decide_eq_true_eq]
    omega

/-- A word whose category is free is not among the parts. -/
theorem notMem_of_free (h : f.Accounts parts) {word : String} {p : Primitive}
    (hp : Keyword.ofWord? word = some (.primitive p)) (hfree : f.contains p.flag = false) :
    (NodeKind.primitiveType, some word) ∉ parts := by
  intro hmem
  obtain ⟨q, hq, hheld⟩ := h.word hmem
  obtain rfl : p = q := Keyword.primitive.inj (Option.some.inj (hp.symm.trans hq))
  rw [hfree] at hheld
  cases hheld

/-- One more part, whose category is new if it needs one. -/
theorem concat (h : f.Accounts parts)
    (hmono : ∀ w : Keyword, f.contains w.flag = true → f'.contains w.flag = true)
    (hspecifier : part.1 = .specifier →
      f.contains .storage = false ∧ f'.contains .storage = true)
    (hqualifier : part.1 = .qualifier →
      f.contains .qualifier = false ∧ f'.contains .qualifier = true)
    (hprimitive : ∀ word, part = (.primitiveType, some word) → ∃ p,
      Keyword.ofWord? word = some (.primitive p) ∧ f.contains p.flag = false ∧
        f'.contains p.flag = true) :
    f'.Accounts (parts ++ [part]) where
  specifier := by
    have hle := h.specifier
    have hheld := Bool.toNat_le_toNat (hmono .storage)
    rw [List.countP_append, List.countP_singleton]
    simp only [decide_eq_true_eq]
    split
    · next hkind =>
      obtain ⟨hold, hnew⟩ := hspecifier hkind
      rw [hold] at hle
      rw [hnew]
      exact Nat.succ_le_succ hle
    · exact Nat.le_trans hle hheld
  -- A stretch without a pointer ends with the new part, or was there before.
  qualifier hinfix hfree := by
    rcases List.infix_concat_iff.1 hinfix with hsuffix | hinfix
    · by_cases hkind : part.1 = .qualifier
      · have hle := countP_qualifier_le h.last hsuffix hfree
        rwa [if_pos hkind, (hqualifier hkind).1] at hle
      · have hle := countP_qualifier_le (fun hs => h.qualifier hs.isInfix) hsuffix hfree
        rwa [if_neg hkind] at hle
    · exact h.qualifier hinfix hfree
  last hsuffix hfree := by
    have hle := countP_qualifier_le h.last hsuffix hfree
    split at hle
    · next hkind =>
      obtain ⟨hold, hnew⟩ := hqualifier hkind
      rw [hold] at hle
      rw [hnew]
      exact hle
    · exact Nat.le_trans hle (Bool.toNat_le_toNat (hmono .qualifier))
  primitive word := by
    rw [List.count_append, List.count_singleton]
    split
    · next heq =>
      obtain ⟨p, hp, hold, -⟩ := hprimitive word (beq_iff_eq.1 heq)
      exact Nat.le_of_eq (congrArg (· + 1) (List.count_eq_zero.2 (h.notMem_of_free hp hold)))
    · exact h.primitive word
  word {word} hmem := by
    rcases List.mem_append.1 hmem with hmem | hmem
    · obtain ⟨p, hp, hheld⟩ := h.word hmem
      exact ⟨p, hp, hmono (.primitive p) hheld⟩
    · obtain ⟨p, hp, -, hnew⟩ := hprimitive word (List.mem_singleton.1 hmem).symm
      exact ⟨p, hp, hnew⟩

/-- A part that needs no category. -/
theorem concat_other (h : f.Accounts parts)
    (hmono : ∀ w : Keyword, f.contains w.flag = true → f'.contains w.flag = true)
    (hkind : part.1 ∉ [.specifier, .qualifier, .primitiveType]) :
    f'.Accounts (parts ++ [part]) := by
  rw [List.mem_cons, List.mem_cons, List.mem_singleton, not_or, not_or] at hkind
  obtain ⟨hspecifier, hqualifier, hprimitive⟩ := hkind
  exact h.concat hmono (fun heq => absurd heq hspecifier) (fun heq => absurd heq hqualifier)
    fun word heq => absurd (congrArg Prod.fst heq) hprimitive

/-- Behind a pointer no qualifier stands yet. -/
theorem concat_pointer (h : f.Accounts parts) (payload : Option String) :
    (f \ Flags.qualifier).Accounts (parts ++ [(.pointer, payload)]) := by
  have hother : f.Accounts (parts ++ [(.pointer, payload)]) :=
    h.concat_other (fun _ hheld => hheld) (by simp)
  have hheld : ∀ {w : Keyword}, w.flag ≠ Flags.qualifier →
      (f \ Flags.qualifier).contains w.flag = f.contains w.flag :=
    fun hne => single_qualifier.contains_diff_of_ne (Keyword.single_flag _) hne f
  exact {
    specifier := by
      have hstorage : (f \ Flags.qualifier).contains .storage = f.contains .storage :=
        hheld (w := .storage) (by decide)
      rw [hstorage]
      exact hother.specifier
    qualifier := hother.qualifier
    last := by
      intro segment hsuffix hfree
      rcases List.suffix_concat_iff.1 hsuffix with rfl | ⟨before, rfl, -⟩
      · exact Nat.zero_le _
      · exact absurd rfl (hfree _ (List.mem_append_right before List.mem_cons_self))
    primitive := hother.primitive
    word := by
      intro word hmem
      obtain ⟨p, hp, hp'⟩ := hother.word hmem
      exact ⟨p, hp, (hheld (w := .primitive p) (by cases p <;> decide)).trans hp'⟩ }

end Flags.Accounts

/-! ### A sequence -/

namespace Sequence

/-- The parts of the datatype, in their order. -/
def parts (s : Sequence) : List (NodeKind × Option String) :=
  s.tree.parts s.datatype

variable {s : Sequence} {token : Token}

/-- A node that is put elsewhere or is a part that needs no category. -/
theorem accounts_add (h : s.held.Accounts s.parts) {f' : Flags}
    (hmono : ∀ w : Keyword, s.held.contains w.flag = true → f'.contains w.flag = true)
    {parent : NodeId} (hlt : parent < s.tree.size) {kind : NodeKind} (position : Position)
    (payload diagnostic : Option String)
    (hkind : kind ∉ [.specifier, .qualifier, .primitiveType]) :
    f'.Accounts ((s.tree.add parent kind position payload diagnostic).parts s.datatype) := by
  rw [Tree.parts_add s.closed hlt]
  split
  · exact h.concat_other hmono hkind
  · exact h.mono hmono

/-- A part of the sequence is accounted for. -/
theorem accounts_part (h : s.held.Accounts s.parts) {kind : NodeKind} {after : Flags}
    (hj : s.held.judge token = .part kind after) :
    after.Accounts ((s.tree.addLeaf s.datatype kind token).parts s.datatype) := by
  rw [Tree.addLeaf, Tree.parts_add s.closed s.datatype_lt, if_pos rfl]
  -- Only a storage class, a qualifier and a base type are counted.
  cases Flags.takes_of_part hj with
  | storage _ hnew =>
      have hadded := Flags.single_storage.contains_union_self s.held
      exact h.concat Flags.single_storage.keeps (fun _ => ⟨hnew, hadded⟩) (by simp) (by simp)
  | qualifier _ hnew =>
      have hadded := Flags.single_qualifier.contains_union_self s.held
      exact h.concat Flags.single_qualifier.keeps (by simp) (fun _ => ⟨hnew, hadded⟩) (by simp)
  | modifier _ hadded =>
      exact h.concat_other (Flags.Records.single_of_modifier_judge hadded).keeps (by simp)
  | @primitive p hkeyword hjudge =>
      have hnew := (Flags.primitive_judge_agrees hjudge).1
      refine h.concat p.single_flag.keeps (by simp) (by simp) ?_
      rintro word heq
      cases heq
      exact ⟨p, Token.ofWord?_of_keyword? hkeyword, hnew,
        p.single_flag.contains_union_self s.held⟩
  | pointer _ => exact h.concat_pointer _
  | typeName _ _ _ =>
      exact h.concat_other Flags.single_userDefined.keeps (by simp)

/-- The categories account for the parts behind a token, whatever it is. -/
theorem accounts_step (h : s.held.Accounts s.parts) (token : Token) :
    (s.digest token).flags.Accounts (s.step token).parts := by
  have hlt := s.datatype_lt
  rw [parts, tree_step, datatype_step]
  cases hj : s.held.judge token with
  | part kind after =>
      rw [digest_of_part hj]
      exact accounts_part h hj
  | composed word after =>
      rw [digest_of_composed hj]
      have hnew : s.tree.size < (s.tree.addContainer s.datatype .userType token).size := by
        rw [Tree.size_addContainer]
        exact Nat.lt_succ_self _
      -- The marker goes under the type that is added with it.
      have hmarker : ((s.tree.addContainer s.datatype .userType token).addLeaf s.tree.size
          word.nodeKind token).parts s.datatype =
          (s.tree.addContainer s.datatype .userType token).parts s.datatype := by
        have hclosed : (s.tree.addContainer s.datatype .userType token).Closed :=
          s.closed.add hlt
        rw [Tree.addLeaf, Tree.parts_add hclosed hnew, if_neg (Nat.ne_of_lt hlt)]
      cases Flags.takes_of_composed hj with
      | composed _ _ _ =>
      rw [hmarker]
      exact accounts_add h Flags.single_composed.keeps hlt _ _ _ (by decide)
  | tag after =>
      rw [digest_of_tag hj]
      cases Flags.takes_of_tag hj with
      | tag _ _ _ =>
      exact accounts_add h Flags.single_userDefined.keeps
        (s.closed.tagParent_lt hlt) _ _ _ (by decide)
  | name =>
      rw [digest_of_name hj]
      exact accounts_add h (fun _ hheld => hheld) (s.closed.parentOrSelf_lt hlt) _ _ _ (by decide)
  | refused failure =>
      rw [digest_of_refused hj]
      exact accounts_add h (fun _ hheld => hheld) hlt _ _ _ (by decide)

/-- The categories of a sequence agree, and account for its parts. -/
structure Consistent (s : Sequence) : Prop where
  coherent : s.held.Coherent
  accounts : s.held.Accounts s.parts

/-- A sequence that has not begun is consistent, whatever flags are left over.
-/
theorem consistent_of_isUnbegun (h : s.tree.isUnbegun s.datatype = true) : s.Consistent where
  coherent := s.held_of_isUnbegun h ▸ .empty
  accounts := .of_comments (fun _ hmem => Tree.isComment_of_mem_parts h hmem) _

/-- A token keeps the sequence consistent, accepted or refused. -/
theorem Consistent.step (h : s.Consistent) (token : Token) : (s.step token).Consistent where
  coherent := by
    rw [held_step, flags_digest]
    exact h.coherent.judge token
  accounts := by
    rw [held_step]
    exact accounts_step h.accounts token

/-- A run of tokens keeps the sequence consistent. -/
theorem Consistent.run (h : s.Consistent) (tokens : List Token) : (s.run tokens).Consistent := by
  induction tokens generalizing s with
  | nil => exact h
  | cons token tokens ih => exact ih (h.step token)

/-- The declared name comes where a type is named and no tag is due. -/
theorem Consistent.declared (h : s.Consistent) {id : NodeId}
    (houtcome : (s.digest token).outcome = .declared id) :
    ((∃ m : Modifier, (s.digest token).flags.contains m.flag = true) ∨
      (∃ p : Primitive, (s.digest token).flags.contains p.flag = true) ∨
      (s.digest token).flags.contains .userDefined = true) ∧
      (s.digest token).flags.awaitsTag = false := by
  cases hj : s.held.judge token with
  | name =>
      rw [digest_of_name hj]
      refine ⟨?_, Flags.awaitsTag_eq_false_of_judge hj nofun nofun⟩
      cases Flags.takes_of_name hj with
      | name _ _ htyped =>
      by_contra hnone
      simp only [not_or, not_exists, Bool.not_eq_true] at hnone
      obtain ⟨hmodifier, hprimitive, huser⟩ := hnone
      -- A second `long` does not stand without the first one.
      have hlong : s.held.contains .longLong = false := by
        rw [Bool.eq_false_iff]
        exact fun hlong => Bool.eq_false_iff.1 (hmodifier .long) (h.coherent.longLong hlong)
      rw [Flags.namesType_eq_false hmodifier hlong hprimitive huser] at htyped
      cases htyped
  | part kind after => rw [digest_of_part hj] at houtcome; cases houtcome
  | composed word after => rw [digest_of_composed hj] at houtcome; cases houtcome
  | tag after => rw [digest_of_tag hj] at houtcome; cases houtcome
  | refused failure => rw [digest_of_refused hj] at houtcome; cases houtcome

/-- Contradictory specifiers never stand together. In a datatype that begins
empty, whichever categories are left over from before, the categories behind
each token agree, refused tokens counted in. The datatype holds one storage
specifier at most, one qualifier between two pointers and each built-in type
once, and the declared name comes where a type is named and no tag is due. -/
theorem consistent_step_run (s : Sequence) (hempty : s.tree.isUnbegun s.datatype = true)
    (tokens : List Token) (token : Token) :
    let before := s.run tokens
    let flags := (before.digest token).flags
    let parts := (before.step token).parts
    flags.Consistent ∧
      parts.countP (·.1 = .specifier) ≤ 1 ∧
      (∀ segment, segment <:+: parts → (∀ part ∈ segment, part.1 ≠ .pointer) →
        segment.countP (·.1 = .qualifier) ≤ 1) ∧
      (∀ word, parts.count (.primitiveType, some word) ≤ 1) ∧
      ∀ id, (before.digest token).outcome = .declared id →
        ((∃ m : Modifier, flags.contains m.flag = true) ∨
          (∃ p : Primitive, flags.contains p.flag = true) ∨
          flags.contains .userDefined = true) ∧
          flags.awaitsTag = false := by
  intro before flags parts
  have hbefore : before.Consistent := (consistent_of_isUnbegun hempty).run tokens
  -- The step behind the tokens is one more step of the same run.
  have hafter := hbefore.step token
  have hcoherent := hafter.coherent
  rw [before.held_step] at hcoherent
  have hspecifier : parts.countP (·.1 = .specifier) ≤ 1 :=
    Nat.le_trans hafter.accounts.specifier (Bool.toNat_le _)
  exact ⟨hcoherent.consistent, hspecifier, fun _ => hafter.accounts.qualifier,
    hafter.accounts.primitive, fun _ => hbefore.declared⟩

/-- All the categories are left over, and the second word is refused. -/
theorem consistent_step_run_unsignedSigned :
    let s := Sequence.ofUnit ⟨0xffff⟩
    let word (text : String) : Token := ⟨.identifier, .nowhere, text⟩
    s.tree.isUnbegun s.datatype = true ∧
      ((s.run [word "unsigned"]).digest (word "signed")).flags = .unsigned ∧
      ((s.run [word "unsigned"]).digest (word "signed")).flags.Consistent := by
  intro s word
  have hempty : s.tree.isUnbegun s.datatype = true := by decide +kernel
  exact ⟨hempty, by decide +kernel,
    (consistent_step_run s hempty [word "unsigned"] (word "signed")).1⟩

end Sequence

end CDeclarations
