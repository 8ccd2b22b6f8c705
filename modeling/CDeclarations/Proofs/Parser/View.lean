import CDeclarations.Proofs.Specifier.Sequence

/-!
# `CDeclarations.Proofs.Parser.View`: a parse does not know the numbers of its nodes

A view shows a tree as another one: with some nodes left out, or as a
part of a larger tree. Its laws say that what a parse looks up in a
tree is what it would look up in the view, and that an append is seen
as an append. A parse then runs on the view as it runs on the tree.

* `View`: a view of trees, with its laws.
* `View.digest_eq`: a token is digested in the view as in the tree.
* `Sound.view_handle`: a token that the state gives a meaning does to
  the view of a parse what it does to the parse, one lemma for each
  state's handler.
* `Sound.view_feed`: the same for every token that is no comment.
* `Sound.view_feed_of_leaf`: the same for every token, in a view that
  sees the comments.
-/

set_option autoImplicit false

namespace CDeclarations

/-- A view of trees. A node is seen at an index of its own, and a
position as a position of its own. -/
structure View where
  tree : Tree → Tree
  id : Tree → NodeId → NodeId
  position : Position → Position
  /-- Nodes to come are seen behind the tree. -/
  id_size {t : Tree} (ht : t.Regular) (k : Nat) : id t (t.size + k) = (tree t).size + k
  kind? {t : Tree} (ht : t.Regular) {n : NodeId} (h : t.Stem n) (hn : n ≠ Tree.root) :
    (tree t).kind? (id t n) = t.kind? n
  parentOrSelf {t : Tree} (ht : t.Regular) {n : NodeId} (h : t.Stem n) :
    (tree t).parentOrSelf (id t n) = id t (t.parentOrSelf n)
  isUnbegun {t : Tree} (ht : t.Regular) {n : NodeId} (h : t.Stem n) (hn : n ≠ Tree.root) :
    (tree t).isUnbegun (id t n) = t.isUnbegun n
  tagParent {t : Tree} (ht : t.Regular) {n : NodeId} (h : t.Stem n) (hn : n ≠ Tree.root) :
    (tree t).tagParent (id t n) = id t (t.tagParent n)
  /-- An append is seen as an append, but perhaps that of a comment. -/
  add {t : Tree} (ht : t.Regular) {parent : NodeId} (h : t.Stem parent) {kind : NodeKind}
    (hk : kind.isComment = false) (at' : Position) (payload diagnostic : Option String) :
    tree (t.add parent kind at' payload diagnostic) =
      (tree t).add (id t parent) kind (position at') payload diagnostic
  id_add {t : Tree} (ht : t.Regular) {parent : NodeId} (h : t.Stem parent) {kind : NodeKind}
    (hk : kind.isComment = false) (at' : Position) (payload diagnostic : Option String) :
    id (t.add parent kind at' payload diagnostic) = id t

/-- The token at the position where it is seen. -/
def View.token (v : View) (token : Token) : Token :=
  { token with position := v.position token.position }

/-- The parse as it is seen. -/
def Parser.view (p : Parser) (v : View) : Parser :=
  { p with tree := v.tree p.tree, place := v.id p.tree p.place }

variable {v : View}

/-! ### Appending -/

section Append

variable {t : Tree} {parent : NodeId} {kind : NodeKind}

/-- A view sees a leaf that is no comment where it was added. -/
theorem View.addLeaf (ht : t.Regular) (h : t.Stem parent) (hk : kind.isComment = false)
    (token : Token) :
    v.tree (t.addLeaf parent kind token) =
      (v.tree t).addLeaf (v.id t parent) kind (v.token token) :=
  v.add ht h hk token.position (some token.text) none

/-- The nodes keep their numbers in the view when a leaf is added. -/
theorem View.id_addLeaf (ht : t.Regular) (h : t.Stem parent) (hk : kind.isComment = false)
    (token : Token) : v.id (t.addLeaf parent kind token) = v.id t :=
  v.id_add ht h hk token.position (some token.text) none

/-- A view sees a container where it was added. -/
theorem View.addContainer (ht : t.Regular) (h : t.Stem parent) (hk : kind.isComment = false)
    (token : Token) :
    v.tree (t.addContainer parent kind token) =
      (v.tree t).addContainer (v.id t parent) kind (v.token token) :=
  v.add ht h hk token.position none none

/-- The nodes keep their numbers when a container is added. -/
theorem View.id_addContainer (ht : t.Regular) (h : t.Stem parent) (hk : kind.isComment = false)
    (token : Token) : v.id (t.addContainer parent kind token) = v.id t :=
  v.id_add ht h hk token.position none none

/-- A view sees the node of an error where it was added. -/
theorem View.addFailure (ht : t.Regular) (h : t.Stem parent) (token : Token)
    (failure : Failure) :
    v.tree (t.addFailure parent token failure) =
      (v.tree t).addFailure (v.id t parent) (v.token token) failure :=
  v.add ht h rfl token.position (some token.text) (some failure.message)

/-- The nodes keep their numbers when an error is added. -/
theorem View.id_addFailure (ht : t.Regular) (h : t.Stem parent) (token : Token)
    (failure : Failure) : v.id (t.addFailure parent token failure) = v.id t :=
  v.id_add ht h rfl token.position (some token.text) (some failure.message)

end Append

/-! ### Digesting -/

/-- What became of a token, its node being known by another index. -/
def Digested.map (f : NodeId → NodeId) : Digested → Digested
  | .classified id => .classified (f id)
  | .declared id => .declared (f id)
  | .refused id failure => .refused (f id) failure

section Digest

variable {t : Tree} {datatype : NodeId}

/-- A token is digested in the view as in the tree. -/
theorem View.digest_eq (ht : t.Regular) (hd : t.Stem datatype) (hn : datatype ≠ Tree.root)
    (flags : Flags) (token : Token) :
    v.id (digest t datatype flags token).tree = v.id t ∧
      digest (v.tree t) (v.id t datatype) flags (v.token token) =
        ⟨v.tree (digest t datatype flags token).tree, (digest t datatype flags token).flags,
          (digest t datatype flags token).outcome.map (v.id t)⟩ := by
  have hflags : flags.forSequence (v.tree t) (v.id t datatype) = flags.forSequence t datatype := by
    rw [Flags.forSequence, Flags.forSequence, v.isUnbegun ht hd hn]
  have hjudge : (flags.forSequence t datatype).judge (v.token token) =
      (flags.forSequence t datatype).judge token := rfl
  -- The first new node is seen behind the tree.
  have hsize : v.id t t.size = (v.tree t).size := v.id_size ht 0
  cases hj : (flags.forSequence t datatype).judge token with
  | part kind after =>
      have hk := Flags.isComment_of_judge hj
      simp only [digest, hflags, hjudge, hj, Digested.map, hsize]
      exact ⟨View.id_addLeaf ht hd hk token, by rw [View.addLeaf ht hd hk]⟩
  | composed word after =>
      have hmarker : word.nodeKind.isComment = false := by cases word <;> rfl
      have hreg : (t.addContainer datatype .userType token).Regular := ht.add hd
      have hnew := (Tree.holds_addContainer hd.lt_size .userType token).stem rfl
      have hsize' : v.id t (t.size + 1) = (v.tree t).size + 1 := v.id_size ht 1
      simp only [digest, hflags, hjudge, hj, Digested.map, hsize']
      rw [View.id_addLeaf hreg hnew hmarker, View.addLeaf hreg hnew hmarker,
        View.id_addContainer ht hd rfl, View.addContainer ht hd rfl, hsize]
      exact ⟨rfl, rfl⟩
  | tag after =>
      have htag := Tree.Regular.stem_tagParent hd
      simp only [digest, hflags, hjudge, hj, Digested.map, hsize, v.tagParent ht hd hn]
      exact ⟨View.id_addLeaf ht htag rfl token, by rw [View.addLeaf ht htag rfl]⟩
  | name =>
      have hup := ht.stem_parentOrSelf hd
      simp only [digest, hflags, hjudge, hj, Digested.map, hsize, v.parentOrSelf ht hd]
      exact ⟨View.id_addLeaf ht hup rfl token, by rw [View.addLeaf ht hup rfl]⟩
  | refused failure =>
      simp only [digest, hflags, hjudge, hj, Digested.map, hsize]
      exact ⟨View.id_addFailure ht hd token failure, by rw [View.addFailure ht hd]⟩

end Digest

namespace Parser

variable {p : Parser} {token : Token}

/-! ### Steps of the handlers -/

/-- The view of a parser with a new leaf is the view with that leaf. -/
theorem view_leaf (hp : p.tree.Regular) {parent : NodeId} (h : p.tree.Stem parent)
    {kind : NodeKind} (hk : kind.isComment = false) :
    (p.leaf parent kind token).view v =
      (p.view v).leaf (v.id p.tree parent) kind (v.token token) := by
  simp only [view, leaf, View.addLeaf hp h hk, View.id_addLeaf hp h hk]

/-- The view of a parser with a new container is the view with that container.
-/
theorem view_container (hp : p.tree.Regular) {parent : NodeId} (h : p.tree.Stem parent)
    {kind : NodeKind} (hk : kind.isComment = false) :
    (p.container parent kind token).view v =
      (p.view v).container (v.id p.tree parent) kind (v.token token) := by
  simp only [view, container, View.addContainer hp h hk, View.id_addContainer hp h hk]

/-- A parser's new leaf leaves the numbers of the view. -/
theorem id_leaf (hp : p.tree.Regular) {parent : NodeId} (h : p.tree.Stem parent)
    {kind : NodeKind} (hk : kind.isComment = false) :
    v.id (p.leaf parent kind token).tree = v.id p.tree :=
  View.id_addLeaf hp h hk token

/-- A parser's new container leaves the numbers of the view. -/
theorem id_container (hp : p.tree.Regular) {parent : NodeId} (h : p.tree.Stem parent)
    {kind : NodeKind} (hk : kind.isComment = false) :
    v.id (p.container parent kind token).tree = v.id p.tree :=
  View.id_addContainer hp h hk token

/-- Entering a state is seen as entering it. -/
theorem view_enter (state : State) (place : NodeId) :
    (p.enter state place).view v = (p.view v).enter state (v.id p.tree place) :=
  rfl

/-- A leaf is added, and the parse goes to a node of the tree before. -/
theorem view_leaf_enter (hp : p.tree.Regular) {parent : NodeId} (h : p.tree.Stem parent)
    {kind : NodeKind} (hk : kind.isComment = false) (state : State) (place : NodeId) :
    ((p.leaf parent kind token).enter state place).view v =
      ((p.view v).leaf (v.id p.tree parent) kind (v.token token)).enter state
        (v.id p.tree place) := by
  rw [view_enter, view_leaf hp h hk, id_leaf hp h hk]

/-- A container is added, and the parse goes to it. -/
theorem view_container_enter (hp : p.tree.Regular) {parent : NodeId} (h : p.tree.Stem parent)
    {kind : NodeKind} (hk : kind.isComment = false) (state : State) :
    ((p.container parent kind token).enter state p.tree.size).view v =
      ((p.view v).container (v.id p.tree parent) kind (v.token token)).enter state
        (p.view v).tree.size := by
  have hsize : v.id p.tree p.tree.size = (p.view v).tree.size := v.id_size hp 0
  rw [view_enter, view_container hp h hk, id_container hp h hk, hsize]

/-- A refusal is seen as a refusal. -/
theorem view_refuse (hp : p.tree.Regular) (h : p.tree.Stem p.place) (failure : Failure) :
    (p.refuse token failure).view v = (p.view v).refuse (v.token token) failure := by
  simp only [refuse, view_enter]
  simp only [view, View.addFailure hp h, View.id_addFailure hp h]

/-- A climb is seen as a climb. -/
theorem view_up (hp : p.tree.Regular) {id : NodeId} (h : p.tree.Stem id) :
    (p.view v).up (v.id p.tree id) = v.id p.tree (p.up id) :=
  v.parentOrSelf hp h

/-- A specifier is seen as the specifier, in any datatype below the root. -/
theorem view_digestAt (hp : p.tree.Regular) {datatype : NodeId} (hd : p.tree.Stem datatype)
    (hn : datatype ≠ Tree.root) (within behind : State) :
    (p.digestAt datatype token within behind).view v =
      (p.view v).digestAt (v.id p.tree datatype) (v.token token) within behind := by
  obtain ⟨hid, heq⟩ := View.digest_eq (v := v) hp hd hn p.flags token
  obtain ⟨hreg, hgrows⟩ := digest_regular_grows hp hd p.flags token
  have hup := v.parentOrSelf hreg (hd.mono hgrows)
  rw [hid] at hup
  simp only [digestAt, view, heq]
  -- Each outcome is mapped, and the climb behind a name with it.
  cases (digest p.tree datatype p.flags token).outcome with
  | classified id => simp only [Digested.map, enter, hid]
  | declared id => simp only [Digested.map, enter, up, hid, hup]
  | refused id failure => simp only [Digested.map, enter, hid]

/-- A leaf is added, and the parse goes above the node that it is added
to. -/
theorem view_leaf_climb (hp : p.tree.Regular) {parent : NodeId} (h : p.tree.Stem parent)
    {kind : NodeKind} (hk : kind.isComment = false) (state : State) :
    ((p.leaf parent kind token).enter state ((p.leaf parent kind token).up parent)).view v =
      ((p.view v).leaf (v.id p.tree parent) kind (v.token token)).enter state
        (((p.view v).leaf (v.id p.tree parent) kind (v.token token)).up (v.id p.tree parent)) := by
  have hreg : (p.leaf parent kind token).tree.Regular := hp.add h
  have hparent : (p.leaf parent kind token).tree.Stem parent :=
    h.mono (Tree.grows_addLeaf h.lt_size kind token)
  rw [view_enter, ← view_up hreg hparent, view_leaf hp h hk, id_leaf hp h hk]

/-- An opening bracket adds its three nodes in the view, too. -/
theorem view_bracket (hp : p.tree.Regular) (h : p.tree.Stem p.place)
    {outer bracket inner : NodeKind}
    (houter : outer.isComment = false) (hbracket : bracket.isComment = false)
    (hinner : inner.isComment = false) (state : State) :
    ((((p.container p.place outer token).leaf p.tree.size bracket token).container p.tree.size
      inner token).enter state (p.tree.size + 2)).view v =
    ((((p.view v).container (p.view v).place outer (v.token token)).leaf (p.view v).tree.size
      bracket (v.token token)).container (p.view v).tree.size inner (v.token token)).enter state
        ((p.view v).tree.size + 2) := by
  have hsize : v.id p.tree p.tree.size = (p.view v).tree.size := v.id_size hp 0
  -- Three nodes are added at the end, where the view numbers them one by one.
  have hsize₂ : v.id p.tree (p.tree.size + 2) = (p.view v).tree.size + 2 := v.id_size hp 2
  have hreg₁ : (p.container p.place outer token).tree.Regular := hp.add h
  have hnew₁ := (Tree.holds_addContainer h.lt_size outer token).stem houter
  have hreg₂ : ((p.container p.place outer token).leaf p.tree.size bracket token).tree.Regular :=
    hreg₁.add hnew₁
  have hnew₂ := hnew₁.mono (Tree.grows_addLeaf hnew₁.lt_size bracket token)
  rw [view_enter, view_container hreg₂ hnew₂ hinner, id_container hreg₂ hnew₂ hinner,
    view_leaf hreg₁ hnew₁ hbracket, id_leaf hreg₁ hnew₁ hbracket, view_container hp h houter,
    id_container hp h houter, hsize, hsize₂]
  rfl

/-- A choice that falls the same way in the view is seen as that
choice. -/
theorem view_ite {c d : Prop} [Decidable c] [Decidable d] (hcd : c = d) {p q p' q' : Parser}
    (h : c → p.view v = p') (h' : ¬c → q.view v = q') :
    (if c then p else q).view v = if d then p' else q' := by
  subst hcd
  split
  · next hc => exact h hc
  · next hc => exact h' hc

/-! ### The handlers -/

/-- What an idle parser does is seen as done by an idle parser. -/
theorem Sound.view_onIdle (hp : p.Sound) :
    (p.onIdle token).view v = (p.view v).onIdle (v.token token) := by
  have hstem := hp.stem
  unfold Parser.onIdle
  dsimp only
  refine view_ite rfl (fun _ => ?_) (fun _ => view_ite rfl (fun _ => ?_) (fun _ => ?_))
  · exact view_container_enter hp.regular hstem rfl _
  · have hsize : v.id p.tree p.tree.size = (p.view v).tree.size := v.id_size hp.regular 0
    have hreg : (p.container p.place .datatype token).tree.Regular := hp.regular.add hstem
    have hnew := Tree.holds_addContainer hstem.lt_size .datatype token
    -- The new datatype is seen behind the view of the tree.
    rw [view_digestAt hreg (hnew.stem rfl) (hreg.toLinked.ne_root hnew),
      view_container hp.regular hstem rfl, id_container hp.regular hstem rfl, hsize]
    rfl
  · exact view_refuse hp.regular hstem _

/-- The word of a directive is read in the view as it is in the parser. -/
theorem Sound.view_onPreprocessor (hp : p.Sound) :
    (p.onPreprocessor token).view v = (p.view v).onPreprocessor (v.token token) := by
  have hstem := hp.stem
  unfold Parser.onPreprocessor
  dsimp only
  refine view_ite rfl (fun _ => view_container_enter hp.regular hstem rfl _) (fun _ => ?_)
  refine view_ite rfl (fun _ => view_container_enter hp.regular hstem rfl _) (fun _ => ?_)
  refine view_ite rfl (fun _ => view_container_enter hp.regular hstem rfl _) (fun _ => ?_)
  exact view_refuse hp.regular hstem _

/-- A directive ends in the view where it ends in the parser. -/
theorem Sound.view_endDirective (hp : p.Sound) {kind : NodeKind} (hk : kind.isComment = false) :
    (p.endDirective kind token).view v = (p.view v).endDirective kind (v.token token) := by
  have hstem := hp.stem
  have hreg : (p.leaf p.place kind token).tree.Regular := hp.regular.add hstem
  have hstem' : (p.leaf p.place kind token).tree.Stem p.place :=
    hstem.mono (Tree.grows_addLeaf hstem.lt_size kind token)
  have hup : (p.leaf p.place kind token).tree.Stem ((p.leaf p.place kind token).up p.place) :=
    hreg.stem_parentOrSelf hstem'
  unfold Parser.endDirective
  dsimp only
  rw [view_enter, ← view_up hreg hup, ← view_up hreg hstem', view_leaf hp.regular hstem hk,
    id_leaf hp.regular hstem hk]
  rfl

/-- What follows a declared name is read in the view as it is in the parser.
-/
theorem Sound.view_onIdentifier (hp : p.Sound) :
    (p.onIdentifier token).view v = (p.view v).onIdentifier (v.token token) := by
  have hstem := hp.stem
  unfold Parser.onIdentifier
  dsimp only
  refine view_ite rfl (fun _ => view_leaf_enter hp.regular hstem rfl _ _) (fun _ => ?_)
  refine view_ite rfl (fun _ => ?_) (fun _ => ?_)
  · have hsize : v.id p.tree p.tree.size = (p.view v).tree.size := v.id_size hp.regular 0
    have hreg : (p.container p.place .arrayDefinition token).tree.Regular := hp.regular.add hstem
    have hnew := (Tree.holds_addContainer hstem.lt_size .arrayDefinition token).stem rfl
    rw [view_leaf_enter hreg hnew rfl, view_container hp.regular hstem rfl,
      id_container hp.regular hstem rfl, hsize]
    rfl
  refine view_ite rfl (fun _ => view_bracket hp.regular hstem rfl rfl rfl _) (fun _ => ?_)
  refine view_ite rfl (fun _ => ?_) (fun _ => ?_)
  · exact view_container_enter (p := { p with nesting := 0 }) hp.regular hstem rfl _
  refine view_ite rfl (fun _ => ?_) (fun _ => ?_)
  · exact view_refuse hp.regular hstem _
  · exact view_refuse hp.regular hstem _

/-- The content of a length is read in the view as it is in the parser. -/
theorem Sound.view_onArrayDefinition (hp : p.Sound) :
    (p.onArrayDefinition token).view v = (p.view v).onArrayDefinition (v.token token) := by
  have hstem := hp.stem
  unfold Parser.onArrayDefinition
  dsimp only
  refine view_ite rfl (fun _ => view_leaf_climb hp.regular hstem rfl _) (fun _ => ?_)
  refine view_ite rfl (fun _ => ?_) (fun _ => ?_)
  · exact view_refuse hp.regular hstem _
  · exact view_leaf_enter hp.regular hstem rfl _ _

/-- The place of an initializer is seen with its kind, so that the
count of braces begins anew in the view where it does in the tree. -/
theorem Sound.view_onInitialization (hp : p.Sound) (hs : p.state = .initialization) :
    (p.onInitialization token).view v = (p.view v).onInitialization (v.token token) := by
  have hstem := hp.stem
  have hup := hp.regular.stem_parentOrSelf hstem
  have hplace : p.place ≠ Tree.root := by
    obtain ⟨depth, -, hplace, -⟩ := hp.exists_depth hs
    cases hplace with
    | top h => exact hp.regular.toLinked.ne_root h
    | item h _ _ => exact hp.regular.toLinked.ne_root h
  have hkind : (p.view v).tree.kind? (p.view v).place = p.tree.kind? p.place :=
    v.kind? hp.regular hstem hplace
  have hnesting : (p.view v).nesting = p.nesting := rfl
  unfold Parser.onInitialization
  dsimp only
  rw [hkind, hnesting]
  -- The count is the same on both sides, and what it is does not matter from here.
  generalize (if p.tree.kind? p.place = some .arrayItem then p.nesting else 0) = nesting
  refine view_ite rfl (fun _ => ?_) (fun _ => ?_)
  · exact view_bracket (p := { p with nesting := nesting + 1 }) hp.regular hstem rfl rfl rfl _
  refine view_ite rfl (fun _ => ?_) (fun _ => ?_)
  · let q : Parser := { p with nesting := nesting - 1 }
    have hdata : q.tree.Stem (q.up q.place) := hup
    refine view_ite rfl (fun _ => ?_) (fun _ => ?_)
    · rw [view_leaf_climb (p := q) hp.regular hdata rfl, ← view_up (p := q) hp.regular hstem]
      rfl
    · exact view_refuse (p := q) hp.regular hstem _
  let q : Parser := { p with nesting := nesting }
  have hparent : q.tree.Stem (q.up q.place) := hup
  refine view_ite rfl (fun _ => ?_) (fun _ => ?_)
  · refine view_ite rfl (fun _ => ?_) (fun _ => ?_)
    · show ((q.container (q.up q.place) .arrayItem token).enter .initialization q.tree.size).view v
        = _
      rw [view_container_enter (p := q) hp.regular hparent rfl,
        ← view_up (p := q) hp.regular hstem]
      rfl
    · exact view_refuse (p := q) hp.regular hstem _
  refine view_ite rfl (fun _ => ?_) (fun _ => ?_)
  · refine view_ite rfl (fun _ => ?_) (fun _ => ?_)
    · rw [view_leaf_enter (p := q) hp.regular hparent rfl, ← view_up (p := q) hp.regular hstem]
      rfl
    · exact view_refuse (p := q) hp.regular hstem _
  · exact view_leaf_enter (p := q) hp.regular hstem rfl _ _

/-- A parameter's datatype is seen as a datatype, and its parameters as
what holds it. -/
theorem Sound.view_onParameters (hp : p.Sound) (hs : p.state = .parameters) :
    (p.onParameters token).view v = (p.view v).onParameters (v.token token) := by
  have hstem := hp.stem
  -- The root is seen with a kind of its own, but no parameters stand at it.
  have hplace : p.place ≠ Tree.root := by
    rcases hp.seats_of hs with h | ⟨q, h, -⟩
    · exact hp.regular.toLinked.ne_root h
    · exact hp.regular.toLinked.ne_root h
  have hkind : (p.view v).tree.kind? (p.view v).place = p.tree.kind? p.place :=
    v.kind? hp.regular hstem hplace
  have hup : (p.view v).up (p.view v).place = v.id p.tree (p.up p.place) :=
    view_up hp.regular hstem
  unfold Parser.onParameters
  dsimp only
  rw [hkind, hup]
  have hparams : (if p.tree.kind? p.place = some .datatype then v.id p.tree (p.up p.place)
      else (p.view v).place) =
      v.id p.tree (if p.tree.kind? p.place = some .datatype then p.up p.place else p.place) := by
    split <;> rfl
  have hstem' : p.tree.Stem
      (if p.tree.kind? p.place = some .datatype then p.up p.place else p.place) :=
    hp.stem_parameters
  rw [hparams]
  generalize (if p.tree.kind? p.place = some .datatype then p.up p.place else p.place) = parameters
    at hstem'
  refine view_ite rfl (fun _ => view_leaf_climb hp.regular hstem' rfl _) (fun _ => ?_)
  refine view_ite rfl (fun _ => ?_) (fun _ => ?_)
  · have hsize : v.id p.tree (p.tree.size + 1) = (p.view v).tree.size + 1 := v.id_size hp.regular 1
    have hreg : (p.leaf parameters .parameterSeparator token).tree.Regular := hp.regular.add hstem'
    have hparent := hstem'.mono (Tree.grows_addLeaf hstem'.lt_size .parameterSeparator token)
    rw [view_enter, view_container hreg hparent rfl, id_container hreg hparent rfl,
      view_leaf hp.regular hstem' rfl, id_leaf hp.regular hstem' rfl, hsize]
  refine view_ite rfl (fun _ => ?_) (fun _ => ?_)
  · exact view_digestAt hp.regular hstem hplace _ _
  · exact view_refuse hp.regular hstem _

/-- A token that the state gives a meaning does to the view of a parse
what it does to the parse. -/
theorem Sound.view_handle (hp : p.Sound) :
    (p.handle token).view v = (p.view v).handle (v.token token) := by
  have hstem := hp.stem
  have hseats := hp.seats
  have hstate : (p.view v).state = p.state := rfl
  unfold Parser.handle
  rw [hstate]
  -- State by state. The view has the same state, so both sides branch alike.
  cases hs : p.state with
  | idle => exact hp.view_onIdle
  | preprocessor => exact hp.view_onPreprocessor
  | includeName | defineBody | pragma => exact hp.view_endDirective rfl
  | defineName => exact view_leaf_enter hp.regular hstem rfl _ _
  | datatype =>
      rw [hs] at hseats
      exact view_digestAt hp.regular hstem (hp.regular.toLinked.ne_root hseats) _ _
  | identifier => exact hp.view_onIdentifier
  | arrayDefinition => exact hp.view_onArrayDefinition
  | initialization => exact hp.view_onInitialization hs
  | parameters => exact hp.view_onParameters hs
  | functionDeclared => exact view_refuse hp.regular hstem _
  | stopped failure => rfl

/-- A token that is no comment is handed to the view of a parse as it
is handed to the parse. -/
theorem Sound.view_feed (hp : p.Sound) (hk : token.kind.isComment = false) :
    (p.feed token).view v = (p.view v).feed (v.token token) := by
  unfold Parser.feed
  refine view_ite rfl (fun _ => rfl) (fun _ => ?_)
  have hkind : (v.token token).kind = token.kind := rfl
  rw [hkind]
  cases h : token.kind with
  | blockComment | lineComment =>
      rw [h] at hk
      cases hk
  | invalid => exact view_refuse hp.regular hp.stem _
  | _ => exact hp.view_handle

/-- In a view that sees comments as they are kept, every token is handed
to the parse as it is seen. -/
theorem Sound.view_feed_of_leaf (hp : p.Sound)
    (hleaf : ∀ kind, (p.leaf p.place kind token).view v =
      (p.view v).leaf (v.id p.tree p.place) kind (v.token token)) :
    (p.feed token).view v = (p.view v).feed (v.token token) := by
  -- What is seen of a comment depends on the view, and the hypothesis says it.
  cases hk : token.kind.isComment with
  | false => exact hp.view_feed hk
  | true =>
      unfold Parser.feed
      refine view_ite rfl (fun _ => rfl) (fun _ => ?_)
      have hkind : (v.token token).kind = token.kind := rfl
      rw [hkind]
      cases h : token.kind with
      | blockComment => exact hleaf _
      | lineComment => exact hleaf _
      | _ =>
          rw [h] at hk
          cases hk

end Parser

end CDeclarations
