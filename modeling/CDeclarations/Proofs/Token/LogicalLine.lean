import CDeclarations.Proofs.Token.DefineBody
import CDeclarations.Proofs.Token.Printed
import CDeclarations.Token.Cursor

/-!
# `CDeclarations.Proofs.Token.LogicalLine`: joints inside a pair of characters

The body of a definition is the code of its logical line, with the joints
between the physical lines taken out. They are taken out while the body is
read, not before. A joint is then in the way of two pairs of characters that
belong together: the slashes of a comment are not seen as one, and a
backslash inside quotes protects the backslash of the joint, so that the
line feed of the joint ends the body.

* `Text.code`: the code at the front of a text without joints.
* `Text.Parted`: a joint stands in a pair that is reached.
* `Cursor.text_next_defineBody_iff`: where no joint does, and nowhere else,
  the body is the code of the joined text.
-/

set_option autoImplicit false

namespace CDeclarations

namespace Text

/-! ### The code of a line -/

/-- Where a character of a line stands. -/
inductive Quoting
  | outside
  | inside (quote : Char)
  /-- Behind a backslash inside quotes, which protects the character. -/
  | behindBackslash (quote : Char)
deriving DecidableEq

/-- Where the character behind `c` stands. -/
def Quoting.behind : Quoting → Char → Quoting
  | .outside, c => if c = '"' ∨ c = '\'' then .inside c else .outside
  | .inside quote, c =>
      if c = '\\' then .behindBackslash quote
      else if c = quote then .outside
      else .inside quote
  | .behindBackslash quote, _ => .inside quote

/-- A backslash protects the character. -/
def Quoting.isProtected : Quoting → Bool
  | .behindBackslash _ => true
  | _ => false

/-- A text that stands so begins with two slashes outside quotes. -/
def OpensComment (s : Quoting) (text : List Char) : Prop :=
  s = .outside ∧ ['/', '/'] <+: text

instance (s : Quoting) (text : List Char) : Decidable (OpensComment s text) :=
  inferInstanceAs (Decidable (_ ∧ _))

/-- The code at the front of a text: what stands before the end of the line
and before a comment. -/
def code : Quoting → List Char → List Char
  | _, [] => []
  | s, c :: after =>
      if c = '\n' ∨ OpensComment s (c :: after) then [] else c :: code (s.behind c) after

/-! ### Joints -/

/-- The text begins with a joint between two lines. -/
def OpensJoint (text : List Char) : Prop :=
  ['\\', '\n'] <+: text ∨ ['\\', '\r', '\n'] <+: text

instance (text : List Char) : Decidable (OpensJoint text) :=
  inferInstanceAs (Decidable (_ ∨ _))

/-- The characters of a text without its joints, each with whether a joint
stands right behind it. -/
def cuts : List Char → List (Char × Bool)
  | [] => []
  | '\\' :: '\n' :: after => cuts after
  | '\\' :: '\r' :: '\n' :: after => cuts after
  | c :: after => (c, decide (OpensJoint after)) :: cuts after

/-- A joint stands in a pair of characters of the code at the front of a
text: between the slashes of the comment that ends it, or behind a backslash
inside quotes. In the second case something else has to follow on the line
than one more backslash, which would be read where the joint is, too. -/
def Parted : Quoting → List (Char × Bool) → Prop
  | _, [] => False
  | s, (c, cut) :: after =>
      if c = '\n' then False
      else if OpensComment s (c :: after.map Prod.fst) then cut = true
      else if cut ∧ (s.behind c).isProtected then
        trimEnd (code (s.behind c) (after.map Prod.fst)) ≠ ['\\']
      else Parted (s.behind c) after

/-- A joint is a backslash with a line feed, or with a return before it. -/
theorem OpensJoint.cases {text : List Char} (h : OpensJoint text) :
    ∃ after, text = '\\' :: '\n' :: after ∨ text = '\\' :: '\r' :: '\n' :: after := by
  obtain ⟨after, rfl⟩ | ⟨after, rfl⟩ := h
  · exact ⟨after, Or.inl rfl⟩
  · exact ⟨after, Or.inr rfl⟩

/-- A text opens no joint unless it begins with a backslash and the end of a
line. -/
theorem not_opensJoint_cons_iff {c : Char} {after : List Char} :
    ¬OpensJoint (c :: after) ↔
      c ≠ '\\' ∨ (after.head? ≠ some '\n' ∧ after.take 2 ≠ ['\r', '\n']) := by
  have hfeed : ['\n'] <+: after ↔ after.head? = some '\n' := by
    cases after <;> simp [eq_comm]
  have hreturn : ['\r', '\n'] <+: after ↔ after.take 2 = ['\r', '\n'] := by
    rw [List.prefix_iff_eq_take, eq_comm]
    rfl
  rw [OpensJoint, List.cons_prefix_cons, List.cons_prefix_cons, hfeed, hreturn]
  grind

/-- A character that opens no joint stays when the text is joined. -/
theorem joinLines_cons_of_not_opensJoint {c : Char} {after : List Char}
    (h : ¬OpensJoint (c :: after)) : joinLines (c :: after) = c :: joinLines after :=
  joinLines_cons (not_opensJoint_cons_iff.1 h)

/-- A character outside of joints is marked by what stands behind it. -/
theorem cuts_cons_of_not_opensJoint {c : Char} {after : List Char}
    (h : ¬OpensJoint (c :: after)) :
    cuts (c :: after) = (c, decide (OpensJoint after)) :: cuts after := by
  rw [cuts]
  · rintro rest rfl rfl
    exact h (Or.inl ⟨rest, rfl⟩)
  · rintro rest rfl rfl
    exact h (Or.inr ⟨rest, rfl⟩)

/-- A text is empty, or begins with a joint, or with a character that opens
none. -/
theorem joint_induction {motive : List Char → Prop} (nil : motive [])
    (feed : ∀ after, motive after → motive ('\\' :: '\n' :: after))
    (returned : ∀ after, motive after → motive ('\\' :: '\r' :: '\n' :: after))
    (cons : ∀ c after, ¬OpensJoint (c :: after) → motive after → motive (c :: after))
    (text : List Char) : motive text := by
  refine cuts.induct motive nil feed returned ?_ text
  intro c after hfeed hreturned ih
  refine cons c after ?_ ih
  rintro (⟨rest, h⟩ | ⟨rest, h⟩)
  · cases h
    exact hfeed rest rfl rfl
  · cases h
    exact hreturned rest rfl rfl

/-- The marked characters are the joined text. -/
theorem map_fst_cuts (text : List Char) : (cuts text).map Prod.fst = joinLines text := by
  induction text using joint_induction with
  | nil => rfl
  | feed after ih => exact ih
  | returned after ih => exact ih
  | cons c after h ih =>
      rw [cuts_cons_of_not_opensJoint h, joinLines_cons_of_not_opensJoint h, List.map_cons, ih]

/-- A text that opens no joint and the joined text begin alike. -/
theorem head?_joinLines {text : List Char} (h : ¬OpensJoint text) :
    (joinLines text).head? = text.head? := by
  cases text with
  | nil => rfl
  | cons c after => rw [joinLines_cons_of_not_opensJoint h, List.head?_cons, List.head?_cons]

/-- A character stays when something behind it does, or when it is no blank
itself. -/
theorem trimEnd_cons (c : Char) (cs : List Char) :
    trimEnd (c :: cs) = if trimEnd cs = [] then trimEnd [c] else c :: trimEnd cs := by
  simp only [trimEnd, dropEnd, List.reverse_cons, List.dropWhile_append, List.isEmpty_iff,
    List.reverse_eq_nil_iff]
  split <;> simp

/-- A character before two texts takes no part in whether they are the same
when trimmed. -/
theorem trimEnd_cons_inj (c : Char) (a b : List Char) :
    trimEnd (c :: a) = trimEnd (c :: b) ↔ trimEnd a = trimEnd b := by
  -- One character and nothing behind it is shorter than one with something behind it.
  have hshort : ∀ cs, trimEnd cs ≠ [] → trimEnd [c] ≠ c :: trimEnd cs := by
    intro cs hcs h
    have hlength := congrArg List.length h
    have hle : (trimEnd [c]).length ≤ 1 := by
      rw [trimEnd, dropEnd, List.length_reverse]
      exact List.length_dropWhile_le _ _
    have hpos := List.length_pos_iff.2 hcs
    simp only [List.length_cons] at hlength
    omega
  rw [trimEnd_cons c a, trimEnd_cons c b]
  split <;> rename_i ha <;> split <;> rename_i hb
  · simp [ha, hb]
  · simp [ha, hshort b hb, Ne.symm hb]
  · simp [hb, ha, (hshort a ha).symm]
  · exact List.cons_inj_right c

end Text

namespace Lexeme

open Text (Quoting OpensComment OpensJoint Parted code cuts joinLines trimEnd)

variable {c : Char} {after : List Char} {quote : Option Char}

/-- Where the characters behind an open quote stand. -/
def quoting : Option Char → Quoting
  | none => .outside
  | some q => .inside q

/-- An open quote is one of the two marks. -/
def IsQuote (quote : Option Char) : Prop :=
  ∀ q ∈ quote, q = '"' ∨ q = '\''

/-- A literal is closed by its own quote only. -/
theorem quoteBehind_some {q : Char} (h : IsQuote (some q)) (c : Char) :
    quoteBehind (some q) c = if c = q then none else some q := by
  have hq := h q rfl
  by_cases hqc : c = q
  · subst hqc
    simp [quoteBehind, hq]
  · simp [quoteBehind, hqc, Ne.symm hqc]

/-- Behind any character a literal is open with a quote, or none is. -/
theorem IsQuote.behind (h : IsQuote quote) (c : Char) : IsQuote (quoteBehind quote c) := by
  cases quote with
  | none =>
      rw [quoteBehind]
      split
      · next hc =>
        rintro q ⟨⟩
        exact hc
      · exact h
  | some q =>
      rw [quoteBehind_some h]
      split
      · nofun
      · exact h

/-- The two ways to follow quotes agree but for a backslash in a literal. -/
theorem behind_quoting (h : IsQuote quote) (hbackslash : quote = none ∨ c ≠ '\\') :
    (quoting quote).behind c = quoting (quoteBehind quote c) := by
  cases quote with
  | none =>
      rw [quoting, Quoting.behind, quoteBehind]
      split <;> rfl
  | some q =>
      rw [quoting, Quoting.behind, if_neg (hbackslash.resolve_left (Option.some_ne_none q)),
        quoteBehind_some h]
      split <;> rfl

/-- The body that is read from `text` when `quote` is open is the code of the
joined text, unless a joint stands in a pair. -/
def BodyIsCode (quote : Option Char) (text : List Char) : Prop :=
  trimEnd (joinLines (Reading.longest bodyRule ⟨quote, 0⟩ text).read) =
    trimEnd (code (quoting quote) (joinLines text)) ↔ ¬Parted (quoting quote) (cuts text)

/-- At the end of a line there is neither body nor code. -/
theorem bodyIsCode_feed (quote : Option Char) (after : List Char) :
    BodyIsCode quote ('\n' :: after) := by
  have hjoint : ¬OpensJoint ('\n' :: after) := Text.not_opensJoint_cons_iff.2 (Or.inl (by decide))
  rw [BodyIsCode, Reading.longest_cons_of_none rfl,
    Text.joinLines_cons_of_not_opensJoint hjoint, Text.cuts_cons_of_not_opensJoint hjoint]
  simp [code, Parted]

/-- The slashes of a comment are next to each other. -/
theorem bodyIsCode_comment (after : List Char) : BodyIsCode none ('/' :: '/' :: after) := by
  have hjoint : ∀ after, ¬OpensJoint ('/' :: after) :=
    fun after => Text.not_opensJoint_cons_iff.2 (Or.inl (by decide))
  rw [BodyIsCode, Reading.longest_cons_of_none rfl,
    Text.joinLines_cons_of_not_opensJoint (hjoint _),
    Text.joinLines_cons_of_not_opensJoint (hjoint _),
    Text.cuts_cons_of_not_opensJoint (hjoint _), Text.cuts_cons_of_not_opensJoint (hjoint _)]
  simp [code, Parted, OpensComment, quoting, hjoint]

/-- A joint between the slashes of a comment hides it: the body goes on with
the first slash. -/
theorem bodyIsCode_partedComment (hcut : OpensJoint after)
    (hslash : (joinLines after).head? = some '/') : BodyIsCode none ('/' :: after) := by
  have hjoint : ¬OpensJoint ('/' :: after) := Text.not_opensJoint_cons_iff.2 (Or.inl (by decide))
  have hnext : after.head? ≠ some '/' := by
    rintro h
    obtain ⟨rest, rfl | rfl⟩ := hcut.cases <;> cases h
  -- The slashes are joined into a comment, which the body does not see.
  have hopens : OpensComment .outside ('/' :: joinLines after) := by
    obtain ⟨rest, hrest⟩ := List.head?_eq_some_iff.1 hslash
    exact ⟨rfl, rest, by rw [hrest]; rfl⟩
  have hrule : bodyRule ⟨none, 0⟩ '/' after = some ⟨none, 0⟩ :=
    bodyRule_other (by decide) (by decide) (by simp [hnext])
  have hbody : ∀ cs, trimEnd ('/' :: cs) ≠ [] := by
    intro cs
    rw [trimEnd, Text.dropEnd_cons_of_neg (by decide)]
    exact List.cons_ne_nil _ _
  have hcode : trimEnd (code .outside ('/' :: joinLines after)) = [] := by
    rw [code, if_pos (Or.inr hopens)]
    rfl
  have hparted : Parted .outside (('/', decide (OpensJoint after)) :: cuts after) := by
    rw [Parted, if_neg (by decide), Text.map_fst_cuts, if_pos hopens]
    exact decide_eq_true hcut
  rw [BodyIsCode, Reading.longest_cons_of_some hrule, joinLines_cons_longest_bodyRule,
    Text.joinLines_cons_of_not_opensJoint hjoint, Text.cuts_cons_of_not_opensJoint hjoint]
  simp only [quoting, hcode, hparted, not_true, iff_false]
  exact hbody _

/-- A character that the rule takes alone. -/
theorem BodyIsCode.cons (h : BodyIsCode (quoteBehind quote c) after) (hquote : IsQuote quote)
    (hjoint : ¬OpensJoint (c :: after)) (hbackslash : quote = none ∨ c ≠ '\\')
    (hfeed : c ≠ '\n')
    (hcomment : ¬OpensComment (quoting quote) (c :: joinLines after)) :
    BodyIsCode quote (c :: after) := by
  have hrule : bodyRule ⟨quote, 0⟩ c after = some ⟨quoteBehind quote c, 0⟩ := by
    -- A backslash outside of literals is an ordinary character.
    by_cases hc : c = '\\'
    · obtain rfl : quote = none := hbackslash.resolve_right (not_not.2 hc)
      subst hc
      obtain ⟨hhead, hreturn⟩ :=
        (Text.not_opensJoint_cons_iff.1 hjoint).resolve_left (not_not.2 rfl)
      exact bodyRule_backslash hhead hreturn
    · refine bodyRule_other hfeed hc ?_
      rintro ⟨rfl, rfl, hslash⟩
      refine hcomment ⟨rfl, ?_⟩
      obtain ⟨rest, rfl⟩ := List.head?_eq_some_iff.1 hslash
      have hrest : ¬OpensJoint ('/' :: rest) := Text.not_opensJoint_cons_iff.2 (Or.inl (by decide))
      rw [Text.joinLines_cons_of_not_opensJoint hrest]
      exact ⟨_, rfl⟩
  have hbehind := behind_quoting (c := c) hquote hbackslash
  have hcode : code (quoting quote) (c :: joinLines after) =
      c :: code (quoting (quoteBehind quote c)) (joinLines after) := by
    rw [code, if_neg (not_or.2 ⟨hfeed, hcomment⟩), hbehind]
  have hparted : Parted (quoting quote) ((c, decide (OpensJoint after)) :: cuts after) ↔
      Parted (quoting (quoteBehind quote c)) (cuts after) := by
    rw [Parted, if_neg hfeed, Text.map_fst_cuts, if_neg hcomment, hbehind, if_neg]
    cases quoteBehind quote c <;> simp [quoting, Quoting.isProtected]
  rw [BodyIsCode, Reading.longest_cons_of_some hrule, joinLines_cons_longest_bodyRule,
    Text.joinLines_cons_of_not_opensJoint hjoint, Text.cuts_cons_of_not_opensJoint hjoint,
    hcode, hparted, Text.trimEnd_cons_inj]
  exact h

/-- Inside quotes a backslash takes the backslash of a joint with it, and the
line feed behind that ends the body. -/
theorem bodyIsCode_escapedJoint {q : Char} (hjoint : ¬OpensJoint ('\\' :: after))
    (hcut : OpensJoint after) : BodyIsCode (some q) ('\\' :: after) := by
  have hescape : ∀ rest, after = '\\' :: rest →
      (Reading.longest bodyRule ⟨some q, 0⟩ ('\\' :: after)).read =
        '\\' :: '\\' :: (Reading.longest bodyRule ⟨some q, 0⟩ rest).read := by
    rintro rest rfl
    rw [longest_bodyRule_escape rfl (by decide) (by simp)]
  have hread : trimEnd (joinLines (Reading.longest bodyRule ⟨some q, 0⟩ ('\\' :: after)).read) =
      ['\\', '\\'] := by
    -- rfl⟩ | The escape takes the backslash of the joint, and the body ends with its
    -- line.
    obtain ⟨rest, rfl | rfl⟩ := hcut.cases
    · rw [hescape _ rfl, Reading.longest_cons_of_none rfl]
      rfl
    · have hreturn : bodyRule ⟨some q, 0⟩ '\r' ('\n' :: rest) = some ⟨some q, 0⟩ :=
        bodyRule_other (by decide) (by decide) (by simp)
      rw [hescape _ rfl, Reading.longest_cons_of_some hreturn,
        Reading.longest_cons_of_none rfl]
      rfl
  have hcode : code (.inside q) ('\\' :: joinLines after) =
      '\\' :: code (.behindBackslash q) (joinLines after) := by
    rw [code, if_neg (by simp [OpensComment])]
    rfl
  have hparted : Parted (.inside q) (('\\', decide (OpensJoint after)) :: cuts after) ↔
      trimEnd (code (.behindBackslash q) (joinLines after)) ≠ ['\\'] := by
    rw [Parted, if_neg (by decide), if_neg (by simp [OpensComment]), Text.map_fst_cuts, if_pos]
    · rfl
    · exact ⟨decide_eq_true hcut, rfl⟩
  rw [BodyIsCode, hread, Text.joinLines_cons_of_not_opensJoint hjoint,
    Text.cuts_cons_of_not_opensJoint hjoint, quoting, hcode, hparted, not_not]
  exact (Text.trimEnd_cons_inj '\\' ['\\'] _).trans eq_comm

/-- Inside quotes a backslash protects the character behind it. -/
theorem BodyIsCode.escape {q : Char} (h : BodyIsCode (some q) after) {d : Char}
    (hjoint : ¬OpensJoint ('\\' :: d :: after)) (hcut : ¬OpensJoint (d :: after)) :
    BodyIsCode (some q) ('\\' :: d :: after) := by
  obtain ⟨hhead, hreturn⟩ := (Text.not_opensJoint_cons_iff.1 hjoint).resolve_left (not_not.2 rfl)
  have hfeed : d ≠ '\n' := by simpa using hhead
  have hread : joinLines (Reading.longest bodyRule ⟨some q, 0⟩ ('\\' :: d :: after)).read =
      '\\' :: d :: joinLines (Reading.longest bodyRule ⟨some q, 0⟩ after).read := by
    have hpair : (d :: (Reading.longest bodyRule ⟨some q, 0⟩ after).read).take 2 ≠
        ['\r', '\n'] := by
      have hhead := head?_longest_bodyRule (some q) after
      revert hhead
      cases (Reading.longest bodyRule ⟨some q, 0⟩ after).read <;> simp +contextual
    rw [longest_bodyRule_escape rfl hfeed hreturn,
      Text.joinLines_cons (Or.inr ⟨by simpa using hfeed, hpair⟩), joinLines_cons_longest_bodyRule]
  have hcode : code (.inside q) ('\\' :: d :: joinLines after) =
      '\\' :: d :: code (.inside q) (joinLines after) := by
    simp [code, OpensComment, Quoting.behind, hfeed]
  have hparted : Parted (.inside q)
      (('\\', decide (OpensJoint (d :: after))) :: (d, decide (OpensJoint after)) :: cuts after) ↔
      Parted (.inside q) (cuts after) := by
    simp [Parted, OpensComment, Quoting.behind, Quoting.isProtected, hcut, hfeed]
  rw [BodyIsCode, hread, Text.joinLines_cons_of_not_opensJoint hjoint,
    Text.cuts_cons_of_not_opensJoint hjoint, Text.joinLines_cons_of_not_opensJoint hcut,
    Text.cuts_cons_of_not_opensJoint hcut, quoting, hcode, hparted, Text.trimEnd_cons_inj,
    Text.trimEnd_cons_inj]
  exact h

/-- Every text satisfies the equivalence, wherever a literal was opened before
it. -/
theorem bodyIsCode (hquote : IsQuote quote) (text : List Char) : BodyIsCode quote text := by
  -- An escape takes two characters at once.
  induction hlength : text.length using Nat.strongRecOn generalizing quote text with
  | ind n ih =>
  subst hlength
  have hrest : ∀ {quote} rest, IsQuote quote → rest.length < text.length →
      BodyIsCode quote rest := fun rest hquote hlt => ih _ hlt hquote rest rfl
  by_cases hjoint : OpensJoint text
  · obtain ⟨rest, rfl | rfl⟩ := hjoint.cases
    · have h := hrest rest hquote (by simp only [List.length_cons]; omega)
      rwa [BodyIsCode, longest_bodyRule_joint]
    · have h := hrest rest hquote (by simp only [List.length_cons]; omega)
      rwa [BodyIsCode, longest_bodyRule_joint_return]
  cases text with
  | nil => exact iff_of_true rfl not_false
  | cons c after =>
  by_cases hfeed : c = '\n'
  · subst hfeed
    exact bodyIsCode_feed quote after
  by_cases hcomment : OpensComment (quoting quote) (c :: joinLines after)
  · obtain ⟨houtside, rest, hslashes⟩ := hcomment
    obtain ⟨rfl, hslash⟩ := List.cons.inj hslashes
    obtain rfl : quote = none := by
      cases quote
      · rfl
      · cases houtside
    by_cases hcut : OpensJoint after
    · exact bodyIsCode_partedComment hcut (by rw [← hslash]; rfl)
    · have hhead := Text.head?_joinLines hcut
      rw [← hslash] at hhead
      obtain ⟨rest, rfl⟩ := List.head?_eq_some_iff.1 hhead.symm
      exact bodyIsCode_comment rest
  by_cases hbackslash : quote = none ∨ c ≠ '\\'
  · exact (hrest after (hquote.behind c) (Nat.lt_succ_self _)).cons hquote hjoint hbackslash hfeed
      hcomment
  -- Inside of a literal a backslash escapes what follows, be it the backslash of a
  -- joint.
  obtain ⟨hquoted, hc⟩ := not_or.1 hbackslash
  obtain rfl : c = '\\' := not_not.1 hc
  obtain ⟨q, rfl⟩ := Option.ne_none_iff_exists'.1 hquoted
  by_cases hcut : OpensJoint after
  · exact bodyIsCode_escapedJoint hjoint hcut
  cases after with
  | nil =>
      refine iff_of_true rfl ?_
      simp [cuts, Parted, OpensComment, hcut]
  | cons d rest =>
      exact (hrest rest hquote (by simp only [List.length_cons]; omega)).escape hjoint hcut

end Lexeme

namespace Cursor

open Text (Parted code cuts isLineBlank joinLines trimEnd)

/-- The body of a definition is the code of its logical line, the rest of the
text with its joints removed, if and only if no joint stands in a pair. It is
a literal unless it is too long. -/
theorem text_next_defineBody_iff (c : Cursor) :
    let body := c.unread.dropWhile isLineBlank
    ∃ token d, c.next .defineBody = (some token, d) ∧
      (token.text = String.ofList (trimEnd (code .outside (joinLines body))) ↔
        ¬Parted .outside (cuts body)) ∧
      (token.text.length ≤ 65534 → token.kind = .defineLiteral) := by
  intro body
  have hbody : (Lexeme.lineBlanks c.unread).rest = body := Reading.span_rest isLineBlank c.unread
  refine ⟨_, _, rfl, ?_, ?_⟩
  · have houtside : Lexeme.IsQuote none := nofun
    rw [hbody, String.ofList_inj]
    exact Lexeme.bodyIsCode houtside body
  · intro hlength
    have hspelled : (Lexeme.ofDefineBody (Lexeme.lineBlanks c.unread).rest).text.length ≤
        Lexeme.lexemeLimit := by
      simpa [Lexeme.lexemeLimit] using hlength
    exact if_pos hspelled

/-- Where a joint stands between two slashes, as in `1 /\` and `/ 2` on the next
line, the comment is read as part of the body. -/
theorem text_next_defineBody_ne_code :
    ¬∀ text : List Char, ∃ token d, (ofList text).next .defineBody = (some token, d) ∧
      token.text =
        String.ofList (trimEnd (code .outside (joinLines (text.dropWhile isLineBlank)))) := by
  intro h
  obtain ⟨token, d, hnext, htext⟩ := h "1 /\\\n/ 2".toList
  cases hnext
  revert htext
  decide +kernel

end Cursor

end CDeclarations
