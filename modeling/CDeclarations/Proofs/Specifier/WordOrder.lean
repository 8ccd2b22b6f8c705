import CDeclarations.Proofs.Specifier.Records
import CDeclarations.Proofs.Specifier.Sequence
import Mathlib

/-!
# `CDeclarations.Proofs.Specifier.WordOrder`: when the order of words matters

A specifier sequence is checked word by word, each word against those
before it. The checks are symmetric but for one: a second `long` is
refused behind a `double`, and a `double` is taken behind two `long`s.
So `long long double` is classified and `long double long` is not.

* `EmptyDatatype.classifiesAll_iff`: what a datatype takes, in terms of
  words.
* `EmptyDatatype.classifiesAll_perm_iff`: the order of words does not
  matter, but for a `double` among agreeing words with `long` twice.
-/

set_option autoImplicit false

namespace CDeclarations

open Keyword (Agrees Fits)

/-! ### All the words of a sequence -/

namespace Keyword

/-- Each of the words fits behind those before it. -/
def FitAll (seen : List Keyword) : List Keyword → Prop
  | [] => True
  | w :: ws => Fits seen w ∧ FitAll (seen ++ [w]) ws

/-- No `double` stands before a second `long`. -/
def LongsLead (ws : List Keyword) : Prop :=
  ∀ before after, ws = before ++ .modifier .long :: after → .modifier .long ∈ before →
    .primitive .double ∉ before

/-- Without two `long` and a `double` there is no order to keep. -/
theorem longsLead_of_not {ws : List Keyword}
    (h : ¬(2 ≤ ws.count (.modifier .long) ∧ .primitive .double ∈ ws)) : LongsLead ws := by
  rintro before after rfl hlong hdouble
  refine h ⟨?_, List.mem_append_left _ hdouble⟩
  have hpos := List.count_pos_iff.2 hlong
  rw [List.count_append, List.count_cons_self]
  omega

/-- Words fit one by one, and the last behind all the others. -/
theorem fitAll_append_singleton (seen ws : List Keyword) (w : Keyword) :
    FitAll seen (ws ++ [w]) ↔ FitAll seen ws ∧ Fits (seen ++ ws) w := by
  induction ws generalizing seen with
  | nil => simp [FitAll]
  | cons v ws ih =>
      rw [List.cons_append, FitAll, FitAll, ih, List.append_assoc, List.singleton_append, and_assoc]

/-- The order is kept by all words but the last, and the last is no late
`long`. -/
theorem longsLead_append_singleton (ws : List Keyword) (w : Keyword) :
    LongsLead (ws ++ [w]) ↔
      LongsLead ws ∧ (w = .modifier .long → .modifier .long ∈ ws → .primitive .double ∉ ws) := by
  constructor
  · intro h
    constructor
    · rintro before after rfl
      exact h before (after ++ [w]) (by simp)
    · rintro rfl
      exact h ws [] rfl
  · rintro ⟨hinit, hlast⟩ before after heq
    -- The `long` that ends the prefix is the last word, or stands before it.
    cases after using List.reverseRecOn with
    | nil =>
        obtain ⟨rfl, hw⟩ := List.append_inj' heq rfl
        exact hlast (List.singleton_inj.1 hw)
    | append_singleton after v =>
        rw [← List.cons_append, ← List.append_assoc] at heq
        obtain ⟨hws, -⟩ := List.append_inj' heq rfl
        exact hinit before after hws

/-- Each word fits behind those before it when the words agree, `long`
stands twice at most, and no `double` stands before the second one. -/
theorem fitAll_nil_iff (ws : List Keyword) :
    FitAll [] ws ↔
      ws.Pairwise Agrees ∧ ws.count (.modifier .long) ≤ 2 ∧ LongsLead ws := by
  induction ws using List.reverseRecOn with
  | nil => simp [FitAll, LongsLead]
  | append_singleton ws w ih =>
      have hpairwise : (ws ++ [w]).Pairwise Agrees ↔
          ws.Pairwise Agrees ∧ ∀ v ∈ ws, v.Agrees w := by
        simp [List.pairwise_append]
      rw [fitAll_append_singleton, ih, hpairwise, longsLead_append_singleton, List.nil_append, Fits,
        List.count_append]
      -- Only a `long` changes the count and has an order to keep.
      by_cases hlong : w = .modifier .long
      · subst hlong
        have hmem := List.count_pos_iff (a := Keyword.modifier .long) (l := ws)
        rw [List.count_singleton_self]
        grind
      · have hzero : [w].count (.modifier .long) = 0 := by simp [hlong]
        grind

end Keyword

/-! ### What a datatype takes -/

/-- The token is classified. -/
def Digested.isClassified : Digested → Bool
  | .classified _ => true
  | _ => false

/-- The tokens, digested one after another into the datatype, are all
classified. -/
def classifiesAll (datatype : NodeId) : Tree → Flags → List Token → Bool
  | _, _, [] => true
  | t, flags, token :: tokens =>
      let digestion := digest t datatype flags token
      digestion.outcome.isClassified &&
        classifiesAll datatype digestion.tree digestion.flags tokens

/-- A datatype of some tree that holds nothing but comments. -/
structure EmptyDatatype where
  tree : Tree
  datatype : NodeId
  regular : tree.Regular
  stem : tree.Stem datatype
  unbegun : tree.isUnbegun datatype = true

/-- The datatype takes the tokens, whichever categories were held
before. -/
def EmptyDatatype.classifiesAll (s : EmptyDatatype) (flags : Flags) (tokens : List Token) : Bool :=
  CDeclarations.classifiesAll s.datatype s.tree flags tokens

/-- The token is a reserved word that no tag has to follow. -/
def Token.isSimpleWord (token : Token) : Bool :=
  token.keyword?.any Keyword.isSimple

/-- A token that is a simple word is a keyword. -/
theorem Token.exists_of_isSimpleWord {token : Token} (h : token.isSimpleWord = true) :
    ∃ w, token.keyword? = some w ∧ w.isSimple = true :=
  Option.any_eq_true _ _ |>.1 h

/-- The reserved words among the tokens. -/
def words (tokens : List Token) : List Keyword :=
  tokens.filterMap Token.keyword?

/-- Where no tag is due a reserved word is judged as such. -/
theorem Flags.judge_of_keyword? {flags : Flags} {token : Token} {w : Keyword}
    (h : token.keyword? = some w) (hawaits : flags.awaitsTag = false) :
    flags.judge token = flags.judgeKeyword w := by
  have hkind : token.kind = .identifier := by
    by_contra hne
    rw [Token.keyword?, if_neg hne] at h
    cases h
  have hmark : token.isMark '{' = false := by
    rw [Token.isMark, hkind]
    rfl
  rw [Flags.judge, hmark, hawaits, h]
  rfl

/-- Flags that record simple words await no tag. -/
theorem Flags.Records.awaitsTag {flags : Flags} {seen : List Keyword} (h : flags.Records seen) :
    flags.awaitsTag = false := by
  rw [Flags.awaitsTag, h.composed, Bool.false_and]

variable {t : Tree} {datatype : NodeId} {flags : Flags} {seen : List Keyword}

/-- What becomes of a simple word, behind the words of its sequence. -/
theorem digest_of_records (h : (flags.forSequence t datatype).Records seen) {token : Token}
    {w : Keyword} (hkeyword : token.keyword? = some w) (hw : w.isSimple = true) :
    ((digest t datatype flags token).outcome.isClassified = true ↔ Fits seen w) ∧
      (Fits seen w → (digest t datatype flags token).flags.Records (seen ++ [w])) := by
  have hjudge := Flags.judge_of_keyword? hkeyword h.awaitsTag
  rw [← h.exists_judgeKeyword_iff hw]
  rcases Flags.judgeKeyword_of_isSimple (flags.forSequence t datatype) hw with
    ⟨kind, after, hj⟩ | ⟨failure, hj⟩
  · have hafter := h.judgeKeyword hw hj
    rw [hj] at hjudge
    simp [digest, hjudge, hj, Digested.isClassified, hafter]
  · rw [hj] at hjudge
    simp [digest, hjudge, hj, Digested.isClassified]

/-- Words are taken one behind the other exactly when each fits the words
before it. -/
theorem classifiesAll_iff_fitAll (ht : t.Regular) (hd : t.Stem datatype)
    (h : (flags.forSequence t datatype).Records seen) {tokens : List Token}
    (htokens : ∀ token ∈ tokens, token.isSimpleWord = true) :
    classifiesAll datatype t flags tokens = true ↔ Keyword.FitAll seen (words tokens) := by
  -- Each classified word begins the datatype, so the categories that record it are kept.
  induction tokens generalizing t flags seen with
  | nil => simp [classifiesAll, words, Keyword.FitAll]
  | cons token tokens ih =>
      obtain ⟨w, hkeyword, hw⟩ :=
        Token.exists_of_isSimpleWord (htokens token List.mem_cons_self)
      obtain ⟨hclassified, hrecords⟩ := digest_of_records h hkeyword hw
      obtain ⟨hreg, hgrows⟩ := digest_regular_grows ht hd flags token
      rw [classifiesAll, Bool.and_eq_true, hclassified, words, List.filterMap_cons, hkeyword,
        Keyword.FitAll]
      apply and_congr_right
      -- The word that fits is recorded, and the rest is read with it.
      intro hfits
      have hbegun : (digest t datatype flags token).tree.Begun datatype := by
        have houtcome := hclassified.2 hfits
        cases ho : (digest t datatype flags token).outcome with
        | classified id => exact begun_digest ht hd ho
        | declared id => rw [ho] at houtcome; cases houtcome
        | refused id failure => rw [ho] at houtcome; cases houtcome
      apply ih hreg (hd.mono hgrows)
      · rw [Flags.forSequence_of_begun hreg.toLinked hbegun]
        exact hrecords hfits
      · intro token' hmem
        exact htokens token' (List.mem_cons_of_mem _ hmem)

/-- An empty datatype takes words that agree, with `long` twice at most
and no `double` before the second one. -/
theorem EmptyDatatype.classifiesAll_iff (s : EmptyDatatype) (flags : Flags) {tokens : List Token}
    (htokens : ∀ token ∈ tokens, token.isSimpleWord = true) :
    s.classifiesAll flags tokens = true ↔
      (words tokens).Pairwise Agrees ∧ (words tokens).count (.modifier .long) ≤ 2 ∧
        Keyword.LongsLead (words tokens) := by
  have hempty : (flags.forSequence s.tree s.datatype).Records [] := by
    rw [Flags.forSequence, s.unbegun, if_pos rfl]
    exact .empty
  rw [EmptyDatatype.classifiesAll, classifiesAll_iff_fitAll s.regular s.stem hempty htokens,
    Keyword.fitAll_nil_iff]

/-! ### The order of the words -/

/-- The token is the word `long`. -/
def Token.isLong (token : Token) : Bool :=
  token.keyword? = some (.modifier .long)

/-- The tokens with each `long` put first. -/
def longsFirst (tokens : List Token) : List Token :=
  tokens.filter Token.isLong ++ tokens.filter (!Token.isLong ·)

/-- The tokens with each `long` put last. -/
def longsLast (tokens : List Token) : List Token :=
  tokens.filter (!Token.isLong ·) ++ tokens.filter Token.isLong

/-- Putting each `long` first keeps the tokens. -/
theorem longsFirst_perm (tokens : List Token) : (longsFirst tokens).Perm tokens :=
  List.filter_append_perm Token.isLong tokens

/-- Putting each `long` last keeps the tokens. -/
theorem longsLast_perm (tokens : List Token) : (longsLast tokens).Perm tokens :=
  List.perm_append_comm.trans (longsFirst_perm tokens)

/-- Of the tokens that are `long` every word is `long`. -/
theorem eq_long_of_mem_words {tokens : List Token} {w : Keyword}
    (h : w ∈ words (tokens.filter Token.isLong)) : w = .modifier .long := by
  obtain ⟨token, hmem, hw⟩ := List.mem_filterMap.1 h
  have hlong := of_decide_eq_true (List.mem_filter.1 hmem).2
  exact Option.some.inj (hw.symm.trans hlong)

/-- Of the other tokens no word is. -/
theorem ne_long_of_mem_words {tokens : List Token} {w : Keyword}
    (h : w ∈ words (tokens.filter (!Token.isLong ·))) : w ≠ .modifier .long := by
  obtain ⟨token, hmem, hw⟩ := List.mem_filterMap.1 h
  rintro rfl
  have hlong := (List.mem_filter.1 hmem).2
  rw [Token.isLong, hw] at hlong
  cases hlong

/-- The words of tokens are found one by one. -/
theorem words_append (tokens rest : List Token) :
    words (tokens ++ rest) = words tokens ++ words rest :=
  List.filterMap_append

/-- With each `long` put first no `double` stands before one. -/
theorem longsLead_longsFirst (tokens : List Token) :
    Keyword.LongsLead (words (longsFirst tokens)) := by
  intro before after heq _ hdouble
  rw [longsFirst, words_append] at heq
  rcases List.append_eq_append_iff.1 heq with ⟨rest, rfl, hrest⟩ | ⟨rest, hlongs, hrest⟩
  · -- The `long` is among the other words.
    have hmem : Keyword.modifier .long ∈ words (tokens.filter (!Token.isLong ·)) := by
      rw [hrest]
      exact List.mem_append_right _ List.mem_cons_self
    exact ne_long_of_mem_words hmem rfl
  · -- The `double` is among the `long`s.
    have hmem : Keyword.primitive .double ∈ words (tokens.filter Token.isLong) := by
      rw [hlongs]
      exact List.mem_append_left _ hdouble
    cases eq_long_of_mem_words hmem

/-- With each `long` put last, a `double` stands before the second
one. -/
theorem not_longsLead_longsLast {tokens : List Token}
    (htwo : (words tokens).count (.modifier .long) = 2)
    (hdouble : .primitive .double ∈ words tokens) :
    ¬Keyword.LongsLead (words (longsLast tokens)) := by
  have hperm : (words (longsLast tokens)).Perm (words tokens) :=
    (longsLast_perm tokens).filterMap _
  rw [← hperm.count_eq] at htwo
  rw [← hperm.mem_iff] at hdouble
  rw [longsLast, words_append] at htwo hdouble ⊢
  -- The words behind the others are two `long`s.
  have hothers : (words (tokens.filter (!Token.isLong ·))).count (.modifier .long) = 0 :=
    List.count_eq_zero.2 fun hmem => ne_long_of_mem_words hmem rfl
  have hall : words (tokens.filter Token.isLong) =
      List.replicate (words (tokens.filter Token.isLong)).length (.modifier .long) :=
    List.eq_replicate_of_mem fun w hw => eq_long_of_mem_words hw
  rw [List.count_append, hothers, Nat.zero_add, hall, List.count_replicate_self] at htwo
  rw [hall, htwo] at hdouble ⊢
  have hmem : Keyword.primitive .double ∈ words (tokens.filter (!Token.isLong ·)) := by
    rcases List.mem_append.1 hdouble with hmem | hmem
    · exact hmem
    · cases List.eq_of_mem_replicate hmem
  intro h
  refine h (words (tokens.filter (!Token.isLong ·)) ++ [.modifier .long]) [] ?_ ?_ ?_
  · rw [List.append_assoc]
    rfl
  · exact List.mem_append_right _ List.mem_cons_self
  · exact List.mem_append_left _ hmem

/-- Every tree begins with a root that holds nothing; a datatype put
under it is empty. -/
def EmptyDatatype.ofUnit : EmptyDatatype where
  tree := Tree.ofDatatype
  datatype := 1
  regular := (Tree.regular_ofUnit .source "").add (Tree.regular_ofUnit .source "").stem_root
  stem := (Tree.holds_add _ _ _ _ (Tree.regular_ofUnit .source "").stem_root.lt_size).stem rfl
  unbegun := by cbv

/-- The order of simple words does not matter to an empty datatype,
unless `double` stands among words that agree, with `long` twice. -/
theorem EmptyDatatype.classifiesAll_perm_iff {tokens : List Token}
    (htokens : ∀ token ∈ tokens, token.isSimpleWord = true) :
    (∀ (s s' : EmptyDatatype) (flags flags' : Flags) (tokens' : List Token),
        tokens.Perm tokens' → s.classifiesAll flags tokens = s'.classifiesAll flags' tokens') ↔
      ¬((words tokens).Pairwise Agrees ∧ (words tokens).count (.modifier .long) = 2 ∧
        .primitive .double ∈ words tokens) := by
  have hperm_tokens : ∀ tokens', tokens.Perm tokens' →
      ∀ token ∈ tokens', token.isSimpleWord = true := by
    intro tokens' hperm token hmem
    exact htokens token (hperm.mem_iff.2 hmem)
  constructor
  · -- With each `long` put first the words are taken, with each put last they are not.
    rintro h ⟨hagree, htwo, hdouble⟩
    have hfirst := (longsFirst_perm tokens).symm
    have hlast := (longsLast_perm tokens).symm
    have hsame := (h .ofUnit .ofUnit ∅ ∅ _ hfirst).symm.trans (h .ofUnit .ofUnit ∅ ∅ _ hlast)
    have htaken : EmptyDatatype.ofUnit.classifiesAll ∅ (longsFirst tokens) = true := by
      rw [EmptyDatatype.classifiesAll_iff _ _ (hperm_tokens _ hfirst)]
      have hwords : (words tokens).Perm (words (longsFirst tokens)) := hfirst.filterMap _
      refine ⟨?_, ?_, longsLead_longsFirst tokens⟩
      · exact (hwords.pairwise_iff Agrees.symm).1 hagree
      · exact Nat.le_of_eq ((hwords.count_eq _).symm.trans htwo)
    rw [hsame, EmptyDatatype.classifiesAll_iff _ _ (hperm_tokens _ hlast)] at htaken
    exact not_longsLead_longsLast htwo hdouble htaken.2.2
  -- Without such words every order leads with its `long`s, so that no order is refused.
  · intro hbad s s' flags flags' tokens' hperm
    have hwords : (words tokens).Perm (words tokens') := hperm.filterMap _
    rw [Bool.eq_iff_iff, s.classifiesAll_iff _ htokens,
      s'.classifiesAll_iff _ (hperm_tokens _ hperm), ← hwords.count_eq,
      ← hwords.pairwise_iff Agrees.symm]
    apply and_congr_right
    intro hagree
    apply and_congr_right
    intro htwo
    have hfree : ¬(2 ≤ (words tokens).count (.modifier .long) ∧
        .primitive .double ∈ words tokens) := by
      rintro ⟨hle, hdouble⟩
      exact hbad ⟨hagree, Nat.le_antisymm htwo hle, hdouble⟩
    have hfree' := hfree
    rw [hwords.count_eq, hwords.mem_iff] at hfree'
    exact iff_of_true (Keyword.longsLead_of_not hfree) (Keyword.longsLead_of_not hfree')

/-- The identifier tokens spelled so, wherever they stand. -/
def spelled (texts : List String) : List Token :=
  texts.map fun text => ⟨.identifier, .start, text⟩

/-- Two `long` and a `double` are taken in one order and refused in another.
-/
theorem EmptyDatatype.classifiesAll_perm_longLongDouble :
    (∀ token ∈ spelled ["long", "long", "double"], token.isSimpleWord = true) ∧
      ¬∀ (s s' : EmptyDatatype) (flags flags' : Flags) (tokens' : List Token),
        (spelled ["long", "long", "double"]).Perm tokens' →
          s.classifiesAll flags (spelled ["long", "long", "double"]) =
            s'.classifiesAll flags' tokens' := by
  have htokens : ∀ token ∈ spelled ["long", "long", "double"], token.isSimpleWord = true := by
    decide
  refine ⟨htokens, ?_⟩
  rw [EmptyDatatype.classifiesAll_perm_iff htokens]
  decide

/-- The same words are taken in one order and not in another. -/
theorem EmptyDatatype.classifiesAll_not_perm :
    ¬∀ (s s' : EmptyDatatype) (flags flags' : Flags) (tokens tokens' : List Token),
      tokens.Perm tokens' → (∀ token ∈ tokens, token.isSimpleWord = true) →
        (s.classifiesAll flags tokens = true ↔ s'.classifiesAll flags' tokens' = true) := by
  intro h
  have hperm : (spelled ["long", "long", "double"]).Perm (spelled ["long", "double", "long"]) := by
    decide
  have hiff := h .ofUnit .ofUnit ∅ ∅ _ _ hperm (by decide)
  -- One order is taken, and the other refuses its last word.
  have htaken : EmptyDatatype.ofUnit.classifiesAll ∅ (spelled ["long", "long", "double"]) = true :=
    by cbv
  have hrefused :
      EmptyDatatype.ofUnit.classifiesAll ∅ (spelled ["long", "double", "long"]) = false := by
    cbv
  rw [hiff, hrefused] at htaken
  cases htaken

end CDeclarations
