import CDeclarations.Proofs.Text.LineEnds
import CDeclarations.Token.Lexeme

/-!
# `CDeclarations.Proofs.Token.DefineBody`: the body of a definition over its joints

The rule of a definition's body takes a joint of two lines, or inside
quotes a backslash and the next character, at once. In between nothing is
owed to a backslash, and the body is read there as from its beginning.
These are the steps of the reading.

* `sameBody`: the body of a definition is the same when its lines end with
  carriage returns. Its joints then have three characters and are removed
  like the others, and the carriage return at its end is read with it.
-/

set_option autoImplicit false

namespace CDeclarations.Lexeme

open Text (crlf crlf_feed crlf_cons crlf_append)

variable {c : Char} {after : List Char} {quote : Option Char}

/-! ### Steps -/

/-- A backslash that joins no lines is part of the body, and escapes the next
character in a literal. -/
theorem bodyRule_backslash (hfeed : after.head? ≠ some '\n')
    (hreturn : after.take 2 ≠ ['\r', '\n']) :
    bodyRule ⟨quote, 0⟩ '\\' after = some ⟨quote, if quote.isSome then 1 else 0⟩ := by
  simp [bodyRule, hfeed, hreturn]

/-- Any other character is part of the body, and may open or close a literal.
-/
theorem bodyRule_other (hfeed : c ≠ '\n') (hbackslash : c ≠ '\\')
    (hcomment : ¬(c = '/' ∧ quote = none ∧ after.head? = some '/')) :
    bodyRule ⟨quote, 0⟩ c after = some ⟨quoteBehind quote c, 0⟩ := by
  simp only [bodyRule, if_neg hfeed, if_neg hbackslash, if_neg hcomment]
  rfl

/-- A joint is read and the body goes on in the next line. -/
theorem longest_bodyRule_joint (quote : Option Char) (after : List Char) :
    Reading.longest bodyRule ⟨quote, 0⟩ ('\\' :: '\n' :: after) =
      ⟨'\\' :: '\n' :: (Reading.longest bodyRule ⟨quote, 0⟩ after).read,
        (Reading.longest bodyRule ⟨quote, 0⟩ after).state,
        (Reading.longest bodyRule ⟨quote, 0⟩ after).rest⟩ := by
  rw [Reading.longest_cons_of_some rfl, Reading.longest_cons_of_some rfl]
  rfl

/-- So it does behind a joint with a return. -/
theorem longest_bodyRule_joint_return (quote : Option Char) (after : List Char) :
    Reading.longest bodyRule ⟨quote, 0⟩ ('\\' :: '\r' :: '\n' :: after) =
      ⟨'\\' :: '\r' :: '\n' :: (Reading.longest bodyRule ⟨quote, 0⟩ after).read,
        (Reading.longest bodyRule ⟨quote, 0⟩ after).state,
        (Reading.longest bodyRule ⟨quote, 0⟩ after).rest⟩ := by
  rw [Reading.longest_cons_of_some rfl, Reading.longest_cons_of_some rfl,
    Reading.longest_cons_of_some rfl]
  rfl

/-- Inside quotes a backslash takes the next character with it. -/
theorem longest_bodyRule_escape (hquote : quote.isSome) {d : Char} (hfeed : d ≠ '\n')
    (hreturn : (d :: after).take 2 ≠ ['\r', '\n']) :
    Reading.longest bodyRule ⟨quote, 0⟩ ('\\' :: d :: after) =
      ⟨'\\' :: d :: (Reading.longest bodyRule ⟨quote, 0⟩ after).read,
        (Reading.longest bodyRule ⟨quote, 0⟩ after).state,
        (Reading.longest bodyRule ⟨quote, 0⟩ after).rest⟩ := by
  have hrule : bodyRule ⟨quote, 0⟩ '\\' (d :: after) = some ⟨quote, 1⟩ := by
    rw [bodyRule_backslash (by simpa using hfeed) hreturn, if_pos hquote]
  rw [Reading.longest_cons_of_some hrule, Reading.longest_cons_of_some rfl]
  rfl

/-- No body begins with the end of a line. -/
theorem head?_longest_bodyRule (quote : Option Char) (text : List Char) :
    (Reading.longest bodyRule ⟨quote, 0⟩ text).read.head? ≠ some '\n' := by
  cases text with
  | nil => nofun
  | cons c after =>
      cases hrule : bodyRule ⟨quote, 0⟩ c after with
      | none =>
          rw [Reading.longest_cons_of_none hrule]
          nofun
      | some s =>
          rw [Reading.longest_cons_of_some hrule]
          intro hc
          cases Option.some.inj hc
          cases hrule

/-- What stands before a body opens no joint with it, for a body does not
begin with the end of a line. -/
theorem joinLines_cons_longest_bodyRule (c : Char) (quote : Option Char) (text : List Char) :
    Text.joinLines (c :: (Reading.longest bodyRule ⟨quote, 0⟩ text).read) =
      c :: Text.joinLines (Reading.longest bodyRule ⟨quote, 0⟩ text).read := by
  refine Text.joinLines_cons (Or.inr ⟨head?_longest_bodyRule quote text, ?_⟩)
  cases text with
  | nil => nofun
  | cons d after =>
      cases hrule : bodyRule ⟨quote, 0⟩ d after with
      | none =>
          rw [Reading.longest_cons_of_none hrule]
          nofun
      | some s =>
          rw [Reading.longest_cons_of_some hrule, List.take_succ_cons]
          intro hread
          obtain ⟨rfl, hfeed⟩ := List.cons.inj hread
          -- Nothing is owed behind a carriage return, so that a line feed ends the body there.
          rw [bodyRule_other (by decide) (by decide) (by simp)] at hrule
          cases hrule
          have hhead := congrArg List.head? hfeed
          rw [List.head?_take, if_neg (by decide)] at hhead
          exact head?_longest_bodyRule _ after hhead

/-! ### Carriage returns -/

/-- What becomes of the body of a definition, its joints removed. -/
inductive BodyReturns (r r' : Reading BodyState) : Prop
  | even (hread : r'.read = crlf r.read) (hrest : r'.rest = crlf r.rest)
      (hjoined : Text.joinLines r'.read = Text.joinLines r.read)
  | returned (after : List Char) (hread : r'.read = crlf r.read ++ ['\r'])
      (hrest : r.rest = '\n' :: after) (hrest' : r'.rest = '\n' :: crlf after)
      (hjoined : Text.joinLines r'.read = Text.joinLines r.read ++ ['\r'])

/-- What is read in front of two bodies alike leaves them alike. -/
theorem BodyReturns.prepend (before joined : List Char) {r r' : Reading BodyState}
    (h : BodyReturns r r')
    (hjoined : Text.joinLines (before ++ r.read) = joined ++ Text.joinLines r.read)
    (hjoined' : Text.joinLines (crlf before ++ r'.read) = joined ++ Text.joinLines r'.read) :
    BodyReturns ⟨before ++ r.read, r.state, r.rest⟩
      ⟨crlf before ++ r'.read, r'.state, r'.rest⟩ := by
  cases h with
  | even hread hrest hj =>
      refine .even ?_ hrest (by rw [hjoined, hjoined', hj])
      rw [hread, crlf_append]
  | returned after hread hrest hrest' hj =>
      refine .returned after ?_ hrest hrest' ?_
      · rw [hread, crlf_append, List.append_assoc]
      · rw [hjoined, hjoined', hj, List.append_assoc]

/-- The body of a definition that is read from `text` is read over the same
joints when carriage returns are written at the line ends. -/
def SameBody (quote : Option Char) (text : List Char) : Prop :=
  BodyReturns (Reading.longest bodyRule ⟨quote, 0⟩ text)
    (Reading.longest bodyRule ⟨quote, 0⟩ (crlf text))

/-- At the end of a line the body ends, with the return as its last character.
-/
theorem sameBody_feed (quote : Option Char) (after : List Char) :
    SameBody quote ('\n' :: after) := by
  have hreturn : ∀ after, bodyRule ⟨quote, 0⟩ '\r' after = some ⟨quote, 0⟩ :=
    fun after => bodyRule_other (by decide) (by decide) (by simp)
  rw [SameBody, crlf_feed, Reading.longest_cons_of_none rfl,
    Reading.longest_cons_of_some (hreturn _), Reading.longest_cons_of_none rfl]
  exact .returned after rfl rfl rfl rfl

/-- A comment ends the body with or without returns. -/
theorem sameBody_comment (h : after.head? = some '/') : SameBody none ('/' :: after) := by
  have hstop : ∀ after, after.head? = some '/' → bodyRule ⟨none, 0⟩ '/' after = none := by
    intro after h
    simp [bodyRule, h]
  have h' : (crlf after).head? = some '/' := by
    rwa [Text.head?_crlf_iff (by decide) (by decide)]
  rw [SameBody, crlf_cons (by decide), Reading.longest_cons_of_none (hstop _ h),
    Reading.longest_cons_of_none (hstop _ h')]
  exact .even rfl (crlf_cons (by decide) after).symm rfl

/-- A joint is read on both sides, with its return on one of them. -/
theorem SameBody.joint (h : SameBody quote after) : SameBody quote ('\\' :: '\n' :: after) := by
  rw [SameBody, longest_bodyRule_joint, crlf_cons (by decide), crlf_feed,
    longest_bodyRule_joint_return]
  exact h.prepend ['\\', '\n'] [] rfl rfl

/-- An escape in a literal is read alike on both sides. -/
theorem SameBody.escape (h : SameBody quote after) (hquote : quote.isSome) {d : Char}
    (hfeed : d ≠ '\n') (hreturn : d ≠ '\r') : SameBody quote ('\\' :: d :: after) := by
  have hjoined : ∀ text, Text.joinLines
      ('\\' :: d :: (Reading.longest bodyRule ⟨quote, 0⟩ text).read) =
      '\\' :: d :: Text.joinLines (Reading.longest bodyRule ⟨quote, 0⟩ text).read := by
    intro text
    rw [Text.joinLines_cons (Or.inr ⟨by simpa using hfeed, by simp [hreturn]⟩),
      joinLines_cons_longest_bodyRule]
  have hcrlf : crlf ['\\', d] = ['\\', d] := by
    rw [crlf_cons (by decide), crlf_cons hfeed, Text.crlf_nil]
  have hescape := h.prepend ['\\', d] ['\\', d] (hjoined _) (by rw [hcrlf]; exact hjoined _)
  rw [hcrlf] at hescape
  rwa [SameBody, crlf_cons (by decide), crlf_cons hfeed,
    longest_bodyRule_escape hquote hfeed (by simp [hreturn]),
    longest_bodyRule_escape hquote hfeed (by simp [hreturn])]

/-- A character that the rule takes alone. -/
theorem SameBody.cons {quote' : Option Char} (h : SameBody quote' after) (hc : c ≠ '\n')
    (hrule : bodyRule ⟨quote, 0⟩ c after = some ⟨quote', 0⟩)
    (hrule' : bodyRule ⟨quote, 0⟩ c (crlf after) = some ⟨quote', 0⟩) :
    SameBody quote (c :: after) := by
  have hcons := h.prepend [c] [c] (joinLines_cons_longest_bodyRule ..)
    (by rw [crlf_cons hc]; exact joinLines_cons_longest_bodyRule ..)
  rw [crlf_cons hc] at hcons
  rwa [SameBody, crlf_cons hc, Reading.longest_cons_of_some hrule,
    Reading.longest_cons_of_some hrule']

/-- A body without returns is read alike when its lines get them. -/
theorem sameBody (quote : Option Char) (text : List Char) (hreturn : '\r' ∉ text) :
    SameBody quote text := by
  -- An escape takes two characters at once.
  induction hlength : text.length using Nat.strongRecOn generalizing quote text with
  | ind n ih =>
  subst hlength
  cases text with
  | nil => exact .even rfl rfl rfl
  | cons c after =>
  have hafter : '\r' ∉ after := fun h => hreturn (List.mem_cons_of_mem _ h)
  have hrest : ∀ quote, SameBody quote after :=
    fun quote => ih _ (Nat.lt_succ_self _) quote after hafter rfl
  by_cases hc : c = '\n'
  · subst hc
    exact sameBody_feed quote after
  by_cases hbackslash : c = '\\'
  · subst hbackslash
    cases after with
    | nil => exact .even rfl rfl rfl
    | cons d after =>
    have hrest' := ih after.length (by simp only [List.length_cons]; omega) quote after
      (fun h => hafter (List.mem_cons_of_mem _ h)) rfl
    by_cases hfeed : d = '\n'
    · subst hfeed
      exact hrest'.joint
    have hd : d ≠ '\r' := fun h => hafter (h ▸ List.mem_cons_self)
    -- Outside of literals a backslash escapes nothing.
    cases hquote : quote.isSome with
    | true => exact hrest'.escape hquote hfeed hd
    | false =>
        refine (hrest quote).cons hc ?_ ?_
        · rw [bodyRule_backslash (by simpa using hfeed) (by simp [hd]), hquote]
          rfl
        · rw [crlf_cons hfeed, bodyRule_backslash (by simpa using hfeed) (by simp [hd]), hquote]
          rfl
  by_cases hcomment : c = '/' ∧ quote = none ∧ after.head? = some '/'
  · obtain ⟨rfl, rfl, hslash⟩ := hcomment
    exact sameBody_comment hslash
  · refine (hrest (quoteBehind quote c)).cons hc (bodyRule_other hc hbackslash hcomment)
      (bodyRule_other hc hbackslash ?_)
    rwa [Text.head?_crlf_iff (by decide) (by decide)]

end CDeclarations.Lexeme
