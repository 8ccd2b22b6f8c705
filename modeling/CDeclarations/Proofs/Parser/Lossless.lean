import CDeclarations.Parser.Run
import CDeclarations.Proofs.Parser.Placement
import CDeclarations.Proofs.Tree.Transcript

/-!
# `CDeclarations.Proofs.Parser.Lossless`: no token is lost or repeated

The tree of a parse records the tokens that the parse is handed: read
off its nodes, they are the handed tokens in their order, each once, up
to and with the one that stops the parse (`transcript_feedAll`).

* `Parser.handled`: the tokens that a parse is handed before it stops.
* `Sound.records_feed`: one token is recorded once, with one lemma for
  each state's handler.
-/

set_option autoImplicit false

namespace CDeclarations

/-- A mark has the text of its character. -/
theorem Token.text_of_isMark {token : Token} {c : Char} (h : token.isMark c = true) :
    token.text = String.singleton c := by
  simp only [Token.isMark, Bool.and_eq_true, decide_eq_true_eq] at h
  exact h.2

/-- A word has itself as its text. -/
theorem Token.text_of_isWord {token : Token} {word : String} (h : token.isWord word = true) :
    token.text = word := by
  simp only [Token.isWord, Bool.and_eq_true, decide_eq_true_eq] at h
  exact h.2

/-- A digested token is recorded once, whatever it means to its
sequence. -/
theorem transcript_digest {t : Tree} (ht : t.Regular) {datatype : NodeId} (hd : t.Stem datatype)
    (flags : Flags) (token : Token) :
    (digest t datatype flags token).tree.transcript =
      t.transcript ++ [(token.position, token.text)] := by
  unfold digest
  dsimp only
  -- The five verdicts, in the order of the digest.
  split
  · exact Tree.transcript_addLeaf ht.toLinked hd.lt_size _ token
  · -- The container of a composed type records nothing, its marker the word.
    have hnew := Tree.holds_addContainer hd.lt_size .userType token
    have hlinked : (t.addContainer datatype .userType token).Linked := ht.toLinked.add hd.lt_size
    rw [Tree.transcript_addLeaf hlinked hnew.lt_size,
      Tree.transcript_addContainer ht.toLinked hd.lt_size _ (by decide)]
    simp [NodeKind.word?]
  · have htag := Tree.Regular.stem_tagParent hd
    exact Tree.transcript_addLeaf ht.toLinked htag.lt_size _ token
  · have hup := ht.stem_parentOrSelf hd
    exact Tree.transcript_addLeaf ht.toLinked hup.lt_size _ token
  · exact Tree.transcript_addFailure ht.toLinked hd.lt_size token _

namespace Parser

/-- The tokens that the parse is handed before it stops. The refused
token is one of them. -/
def handled (p : Parser) : List Token → List Token
  | [] => []
  | token :: tokens => if p.isStopped then [] else token :: (p.feed token).handled tokens

/-- The tree of `q` records what the tree of `p` does and the token
behind it. -/
def Records (p : Parser) (token : Token) (q : Parser) : Prop :=
  q.tree.transcript = p.tree.transcript ++ [(token.position, token.text)]

variable {p : Parser} {token : Token}

/-- A leaf records the token. -/
theorem records_leaf (hp : p.tree.Regular) {parent : NodeId} (h : p.tree.Stem parent)
    (kind : NodeKind) : p.Records token (p.leaf parent kind token) :=
  Tree.transcript_addLeaf hp.toLinked h.lt_size kind token

/-- An error records the token that was refused. -/
theorem records_refuse (hp : p.tree.Regular) (h : p.tree.Stem p.place) (failure : Failure) :
    p.Records token (p.refuse token failure) :=
  Tree.transcript_addFailure hp.toLinked h.lt_size token failure

/-- A specifier records the token, whatever it was judged to be. -/
theorem records_digestAt (hp : p.tree.Regular) {datatype : NodeId} (hd : p.tree.Stem datatype)
    (within behind : State) :
    p.Records token (p.digestAt datatype token within behind) := by
  have h := transcript_digest hp hd p.flags token
  unfold digestAt
  dsimp only
  split
  · exact h
  · exact h
  · exact h

/-- A container that stands for the token records it. -/
theorem records_container (hp : p.tree.Regular) (h : p.tree.Stem p.place) (kind : NodeKind)
    (hk : kind ≠ .arrayItem) (hword : kind.word? = some token.text) :
    p.Records token (p.container p.place kind token) := by
  rw [Records, container, Tree.transcript_addContainer hp.toLinked h.lt_size kind hk, hword]
  rfl

/-- A container that stands for no token records nothing. -/
theorem transcript_container (hp : p.tree.Regular) {parent : NodeId} (h : p.tree.Stem parent)
    (kind : NodeKind) (hk : kind ≠ .arrayItem) (hword : kind.word? = none) :
    (p.container parent kind token).tree.transcript = p.tree.transcript := by
  rw [container, Tree.transcript_addContainer hp.toLinked h.lt_size kind hk, hword]
  exact List.append_nil _

/-- An opening bracket is recorded by its leaf, not by the container
that is added with it. -/
theorem records_opening (hp : p.tree.Regular) (h : p.tree.Stem p.place) (outer bracket : NodeKind)
    (houter : outer ≠ .arrayItem) (hword : outer.word? = none) (hk : outer.isComment = false) :
    p.Records token ((p.container p.place outer token).leaf p.tree.size bracket token) := by
  have hreg : (p.container p.place outer token).tree.Regular := hp.add h
  have hnew := Tree.holds_addContainer h.lt_size outer token
  rw [Records, records_leaf hreg (hnew.stem hk),
    transcript_container hp h outer houter hword]

/-! ### The handlers -/

/-- An idle parser records the token. -/
theorem Sound.records_onIdle (hp : p.Sound) : p.Records token (p.onIdle token) := by
  have hstem := hp.stem
  rw [Parser.onIdle]
  split
  · next h =>
    exact records_container hp.regular hstem _ (by decide) (Token.text_of_isMark h ▸ rfl)
  split
  -- The datatype records nothing, and the specifier in it the token.
  · have hnew := Tree.holds_addContainer hstem.lt_size .datatype token
    have hreg : (p.container p.place .datatype token).tree.Regular := hp.regular.add hstem
    rw [Records, records_digestAt hreg (hnew.stem rfl),
      transcript_container hp.regular hstem _ (by decide) rfl]
  · exact records_refuse hp.regular hstem _

/-- The container of a directive records its word. -/
theorem Sound.records_onPreprocessor (hp : p.Sound) :
    p.Records token (p.onPreprocessor token) := by
  have hstem := hp.stem
  have hopen : ∀ kind, kind ≠ .arrayItem → kind.word? = some token.text →
      p.Records token (p.container p.place kind token) :=
    fun kind => records_container hp.regular hstem kind
  rw [Parser.onPreprocessor]
  split
  · next h => exact hopen _ (by decide) (Token.text_of_isWord h ▸ rfl)
  split
  · next h => exact hopen _ (by decide) (Token.text_of_isWord h ▸ rfl)
  split
  · next h => exact hopen _ (by decide) (Token.text_of_isWord h ▸ rfl)
  · exact records_refuse hp.regular hstem _

/-- What follows a declared name is recorded. -/
theorem Sound.records_onIdentifier (hp : p.Sound) : p.Records token (p.onIdentifier token) := by
  have hstem := hp.stem
  rw [Parser.onIdentifier]
  split
  · exact records_leaf hp.regular hstem _
  split
  · exact records_opening hp.regular hstem _ _ (by decide) rfl rfl
  split
  · -- The datatype of the first parameter comes third and records nothing.
    have hparams := Tree.holds_addContainer hstem.lt_size .parameters token
    have hreg : ((p.container p.place .parameters token).leaf p.tree.size .openParen
        token).tree.Regular := (hp.regular.add hstem).add (hparams.stem rfl)
    have hstem' := (hparams.mono (Tree.grows_addLeaf hparams.lt_size .openParen token)).stem rfl
    have hopening : p.Records token ((p.container p.place .parameters token).leaf p.tree.size
        .openParen token) :=
      records_opening hp.regular hstem .parameters .openParen (by decide) rfl rfl
    exact (transcript_container hreg hstem' .datatype (by decide) rfl).trans hopening
  split
  · next h =>
    exact records_container hp.regular hstem _ (by decide) (Token.text_of_isMark h ▸ rfl)
  split
  · exact records_refuse hp.regular hstem _
  · exact records_refuse hp.regular hstem _

/-- The content of a length is recorded. -/
theorem Sound.records_onArrayDefinition (hp : p.Sound) :
    p.Records token (p.onArrayDefinition token) := by
  have hstem := hp.stem
  rw [Parser.onArrayDefinition]
  split
  · exact records_leaf hp.regular hstem _
  split
  · exact records_refuse hp.regular hstem _
  · exact records_leaf hp.regular hstem _

/-- An opening brace is recorded by its leaf; the list and its first item
record nothing. -/
theorem records_openBrace (hp : p.tree.Regular) (hstem : p.tree.Stem p.place) :
    p.Records token (((p.container p.place .arrayData token).leaf p.tree.size .openBrace
      token).container p.tree.size .arrayItem token) := by
  have hdata := Tree.holds_addContainer hstem.lt_size .arrayData token
  have hdata' := hdata.mono (Tree.grows_addLeaf hdata.lt_size .openBrace token)
  have hcontainer : (p.tree.addContainer p.place .arrayData token).Linked :=
    (hp.add hstem).toLinked
  have hlinked : ((p.container p.place .arrayData token).leaf p.tree.size .openBrace
      token).tree.Linked := ((hp.add hstem).add (hdata.stem rfl)).toLinked
  -- The list is new, so that no item stands in it yet.
  have hitems : ((p.container p.place .arrayData token).leaf p.tree.size .openBrace
      token).tree.childrenOfKind p.tree.size .arrayItem = #[] := by
    have hold : p.tree.childrenOfKind p.tree.size .arrayItem = #[] := by
      rw [Tree.childrenOfKind, Tree.children_of_le (Nat.le_refl _), Array.filter_empty]
    show ((p.tree.addContainer p.place .arrayData token).addLeaf p.tree.size .openBrace
      token).childrenOfKind p.tree.size .arrayItem = #[]
    rw [Tree.addLeaf, Tree.childrenOfKind_add hcontainer hdata.lt_size, if_neg (by simp),
      Tree.addContainer, Tree.childrenOfKind_add hp.toLinked hstem.lt_size, if_neg (by simp), hold]
  show Tree.transcript (Tree.addContainer _ p.tree.size .arrayItem token) = _
  rw [Tree.transcript_addItem hlinked hdata'.lt_size, if_pos hitems, List.append_nil]
  exact records_opening hp hstem .arrayData .openBrace (by decide) rfl rfl

/-- A comma is recorded by the item that begins behind it, which is not the
first of its list. -/
theorem records_comma (hp : p.tree.Regular) (hmark : token.isMark ',') {data outer : NodeId}
    (hitem : p.tree.Holds p.place .arrayItem data) (hdata : p.tree.Holds data .arrayData outer) :
    p.Records token (p.container data .arrayItem token) := by
  have hitems : p.tree.childrenOfKind data .arrayItem ≠ #[] :=
    Array.ne_empty_of_mem (hp.toLinked.mem_childrenOfKind hitem)
  show Tree.transcript (p.tree.addContainer data .arrayItem token) = _
  rw [Tree.transcript_addItem hp.toLinked hdata.lt_size, if_neg hitems, Token.text_of_isMark hmark]
  rfl

/-- Each step in an initializer records its token. -/
theorem InitializerStep.records {q : Parser} (h : p.InitializerStep token q) (hp : p.Sound) :
    p.Records token q := by
  have hreg := hp.regular
  have hstem := hp.stem
  cases h with
  | openBrace _ _ _ => exact records_openBrace (p := { p with nesting := p.nesting + 1 }) hreg hstem
  | closeBrace _ _ _ hdata _ =>
      exact records_leaf (p := { p with nesting := p.nesting - 1 }) hreg (hdata.stem rfl)
        .closeBrace
  | comma hmark _ hitem hdata _ => exact records_comma hreg hmark hitem hdata
  | sentenceEnd _ _ _ => exact records_leaf hreg hreg.stem_root .sentenceEnd
  | expressionToken _ _ => exact records_leaf hreg hstem .expressionToken
  | reject nesting _ => exact records_refuse (p := { p with nesting := nesting }) hreg hstem _

/-- The content of an initializer is recorded. -/
theorem Sound.records_onInitialization (hp : p.Sound) (hs : p.state = .initialization) :
    p.Records token (p.onInitialization token) :=
  (hp.initializerStep hs).records hp

/-- The content of parameters is recorded. -/
theorem Sound.records_onParameters (hp : p.Sound) : p.Records token (p.onParameters token) := by
  have hstem := hp.stem
  have hparams := hp.stem_parameters
  rw [Parser.onParameters]
  split
  · exact records_leaf hp.regular hparams _
  split
  · -- The separator records the comma, and the datatype behind it nothing.
    have hreg : (p.leaf _ .parameterSeparator token).tree.Regular := hp.regular.add hparams
    have hstem' := hparams.mono (Tree.grows_addLeaf hparams.lt_size .parameterSeparator token)
    exact (transcript_container hreg hstem' .datatype (by decide) rfl).trans
      (records_leaf hp.regular hparams .parameterSeparator)
  split
  · exact records_digestAt hp.regular hstem _ _
  · exact records_refuse hp.regular hstem _

/-- A token that the state gives a meaning is recorded once. -/
theorem Sound.records_handle (hp : p.Sound) (h : p.isStopped = false) :
    p.Records token (p.handle token) := by
  have hstem := hp.stem
  -- State by state. A parser that has stopped is excluded by the hypothesis.
  rw [Parser.handle]
  split
  · exact hp.records_onIdle
  · exact hp.records_onPreprocessor
  · exact records_leaf hp.regular hstem _
  · exact records_leaf hp.regular hstem _
  · exact records_leaf hp.regular hstem _
  · exact records_leaf hp.regular hstem _
  · exact records_digestAt hp.regular hstem _ _
  · exact hp.records_onIdentifier
  · exact hp.records_onArrayDefinition
  · next hs => exact hp.records_onInitialization hs
  · exact hp.records_onParameters
  · exact records_refuse hp.regular hstem _
  · next failure hs => simp [isStopped, hs, State.failure?] at h

/-- A parse that is not stopped records every token it is handed,
once. -/
theorem Sound.records_feed (hp : p.Sound) (h : p.isStopped = false) :
    p.Records token (p.feed token) := by
  have hstem := hp.stem
  rw [Parser.feed, if_neg (by rw [← isStopped, h]; exact Bool.false_ne_true)]
  split
  · exact records_leaf hp.regular hstem _
  · exact records_leaf hp.regular hstem _
  · exact records_refuse hp.regular hstem _
  · exact hp.records_handle h

/-- A stopped parse ignores its tokens. -/
theorem feedAll_of_isStopped (h : p.isStopped = true) (tokens : List Token) :
    p.feedAll tokens = p := by
  induction tokens with
  | nil => rfl
  | cons token tokens ih =>
      show (p.feed token).feedAll tokens = p
      rw [feed_of_isStopped h, ih]

/-- A parse adds what it is handed, until it stops, to what its tree
records. -/
theorem Sound.transcript_feedAll (hp : p.Sound) (tokens : List Token) :
    (p.feedAll tokens).tree.transcript =
      p.tree.transcript ++ (p.handled tokens).map fun t => (t.position, t.text) := by
  induction tokens generalizing p with
  | nil => exact (List.append_nil _).symm
  | cons token tokens ih =>
      rw [handled]
      cases h : p.isStopped with
      | true =>
          -- Nothing is handed to a stopped parse, and nothing is recorded.
          rw [feedAll_of_isStopped h, if_pos rfl, List.map_nil, List.append_nil]
      | false =>
          show ((p.feed token).feedAll tokens).tree.transcript = _
          rw [ih (hp.feed token), hp.records_feed h, if_neg Bool.false_ne_true, List.map_cons,
            List.append_assoc, List.singleton_append]

/-- The tree of a parse records exactly the tokens that the parse is
handed, in their order and each once, up to and with the one that stops
it. -/
theorem transcript_feedAll_ofUnit (kind : UnitKind) (filename : String) (tokens : List Token) :
    ((ofUnit kind filename).feedAll tokens).tree.transcript =
      ((ofUnit kind filename).handled tokens).map fun t => (t.position, t.text) := by
  have h := (sound_ofUnit kind filename).transcript_feedAll tokens
  rwa [show (ofUnit kind filename).tree.transcript = [] from Tree.transcript_ofUnit kind filename,
    List.nil_append] at h

end Parser

end CDeclarations
