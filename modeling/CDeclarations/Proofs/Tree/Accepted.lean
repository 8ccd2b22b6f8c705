import CDeclarations.Proofs.Tree.Traversal

/-!
# `CDeclarations.Proofs.Tree.Accepted`: what accepted appends build

A tree takes any request to append a node whose parent is not beyond the
new node, so that a node may be asked for below itself. Such a request is
accepted as well: the node becomes its own parent and its own child, and
no walk from the root comes to it.

* `NodeRequest`: a request, and `appendAll?` for one request after another.
* `Attached`: every node below the root names a parent that is not behind
  it, which lists it once. An accepted append keeps it (`Attached.add`).
* `Treelike`: parents stand before their children, and pre-order lists
  every node.
* `treelike_ofRequests?_iff`: accepted requests build a tree exactly when
  none of them asks for a node below itself. Any node that is below itself
  is missing in pre-order.
-/

set_option autoImplicit false

namespace CDeclarations

/-- A request to append a node. One with a message asks for an error or a
warning. -/
structure NodeRequest where
  parent : NodeId
  kind : NodeKind
  position : Position
  payload : Option String
  message : Option String

namespace Tree

variable {t u : Tree} {request : NodeRequest} {requests : List NodeRequest}

/-- Appends the requested node. -/
def append? (t : Tree) (request : NodeRequest) : Except TreeFault Tree :=
  match request.message with
  | none => t.add? request.parent request.kind request.position request.payload
  | some message =>
      t.addDiagnostic? request.parent request.kind request.position request.payload message

/-- Appends the requested nodes one after another, all of which have to be
accepted. -/
def appendAll? (t : Tree) (requests : List NodeRequest) : Except TreeFault Tree :=
  requests.foldlM append? t

/-- The tree that requests build from nothing but a root. -/
def ofRequests? (kind : NodeKind) (filename : String) (requests : List NodeRequest) :
    Except TreeFault Tree := do
  let t ← ofRoot? kind filename
  t.appendAll? requests

/-- An accepted request appends its node, the parent of which may be the
node itself. -/
theorem append?_eq_ok (h : t.append? request = .ok u) :
    request.parent ≤ t.size ∧ u = t.add request.parent request.kind request.position
      request.payload request.message := by
  unfold append? at h
  -- A request without a message adds a node, and one with a message a diagnostic.
  split at h
  · next hmessage =>
    unfold add? at h
    split at h
    · next hle =>
      cases h
      rw [hmessage]
      exact ⟨hle, rfl⟩
    · cases h
  · next message hmessage =>
    unfold addDiagnostic? at h
    split at h
    · cases h
    split at h
    · next hle =>
      cases h
      rw [hmessage]
      exact ⟨hle, rfl⟩
    · cases h

/-! ### Look-ups in a tree with one more node -/

section Add

variable {parent : NodeId} (kind : NodeKind) (position : Position)
  (payload diagnostic : Option String)

/-- The parents of a grown tree; the new node may be its own. -/
theorem parent?_add (id : NodeId) :
    (t.add parent kind position payload diagnostic).parent? id =
      if id = t.size then some parent else t.parent? id := by
  -- An old node, the new one, or none of them.
  rcases Nat.lt_trichotomy id t.size with hlt | rfl | hgt
  · rw [parent?, getElem?_add_of_lt _ _ _ _ _ _ hlt, if_neg (Nat.ne_of_lt hlt), parent?,
      Option.bind_map]
    congr 1
    funext n
    show Node.parent (if parent = id then _ else n) = n.parent
    split <;> rfl
  · rw [parent?, getElem?_add_size, if_pos rfl, Option.bind_some]
  · have hnew : (t.add parent kind position payload diagnostic).nodes[id]? = none := by
      apply Array.getElem?_eq_none
      show (t.add parent kind position payload diagnostic).size ≤ id
      rw [size_add]
      exact hgt
    have hold : t.nodes[id]? = none := Array.getElem?_eq_none (Nat.le_of_lt hgt)
    rw [parent?, hnew, if_neg (Nat.ne_of_gt hgt), parent?, hold]

/-- The children of a grown tree; the new node may be its own child. -/
theorem children_add_of_le (h : parent ≤ t.size) (id : NodeId) :
    (t.add parent kind position payload diagnostic).children id =
      if id = parent then (t.children id).push t.size else t.children id := by
  -- The parent is an old node, or the new node itself.
  rcases Nat.lt_or_eq_of_le h with hlt | rfl
  · exact children_add kind position payload diagnostic hlt id
  rcases Nat.lt_trichotomy id t.size with hlt | rfl | hgt
  · obtain ⟨n, hn⟩ : ∃ n, t.nodes[id]? = some n := ⟨_, Array.getElem?_eq_getElem hlt⟩
    rw [children, getElem?_add_of_lt _ _ _ _ _ _ hlt, hn, Option.map_some,
      if_neg (Nat.ne_of_gt hlt), if_neg (Nat.ne_of_lt hlt), children, hn]
  · rw [children, getElem?_add_size, if_pos rfl, if_pos rfl, children_of_le (Nat.le_refl _)]
    rfl
  · have hsize := t.size_add t.size kind position payload diagnostic
    rw [children_of_le (hsize ▸ hgt), if_neg (Nat.ne_of_gt hgt),
      children_of_le (Nat.le_of_lt hgt)]

end Add

/-! ### Nodes that are attached -/

/-- Every node below the root names a parent that is no later than the
node and lists it once, and no other node lists it. -/
structure Attached (t : Tree) : Prop where
  size_pos : 0 < t.size
  root : t.parent? Tree.root = none
  parent : ∀ {id : NodeId}, id < t.size → id ≠ Tree.root →
    ∃ q, t.parent? id = some q ∧ q ≤ id ∧ (t.children q).toList.count id = 1
  child : ∀ {q c : NodeId}, c ∈ t.children q → t.parent? c = some q

/-- A root alone has nothing to attach. -/
theorem attached_ofRoot (kind : NodeKind) (filename : String) :
    (ofRoot kind filename).Attached where
  size_pos := Nat.one_pos
  root := rfl
  parent := fun hlt hne => absurd (Nat.lt_one_iff.1 hlt) hne
  child := by
    intro q c hc
    rw [children_ofRoot] at hc
    exact absurd hc (Array.not_mem_empty c)

/-- A node that names a parent is there. -/
theorem lt_size_of_parent? {id q : NodeId} (h : t.parent? id = some q) : id < t.size := by
  obtain ⟨n, hn, -⟩ := Option.bind_eq_some_iff.1 h
  exact lt_size_of_getElem? hn

/-- An accepted append leaves the nodes attached. -/
theorem Attached.add (ht : t.Attached) {parent : NodeId} (h : parent ≤ t.size) (kind : NodeKind)
    (position : Position) (payload diagnostic : Option String) :
    (t.add parent kind position payload diagnostic).Attached where
  size_pos := by
    rw [size_add]
    exact Nat.succ_pos _
  root := by
    have hne : Tree.root ≠ t.size := Nat.ne_of_lt ht.size_pos
    rw [parent?_add, if_neg hne]
    exact ht.root
  parent := by
    intro id hlt hid
    rw [size_add] at hlt
    rw [parent?_add]
    rcases Nat.lt_or_eq_of_le (Nat.le_of_lt_succ hlt) with hold | rfl
    · obtain ⟨q, hq, hle, hcount⟩ := ht.parent hold hid
      refine ⟨q, by rw [if_neg (Nat.ne_of_lt hold), hq], hle, ?_⟩
      -- One more child is listed at most, and it is the new node.
      rw [children_add_of_le _ _ _ _ h]
      split
      · rw [Array.toList_push, List.count_append, hcount,
          List.count_singleton, if_neg (by simpa using Nat.ne_of_gt hold)]
      · exact hcount
    · refine ⟨parent, by rw [if_pos rfl], h, ?_⟩
      have hnew : (t.children parent).toList.count t.size = 0 := by
        rw [List.count_eq_zero, Array.mem_toList_iff]
        intro hmem
        exact absurd (lt_size_of_parent? (ht.child hmem)) (Nat.lt_irrefl _)
      rw [children_add_of_le _ _ _ _ h, if_pos rfl, Array.toList_push, List.count_append, hnew,
        List.count_singleton_self]
  child := by
    intro q c hc
    rw [children_add_of_le _ _ _ _ h] at hc
    rw [parent?_add]
    have hold : c ∈ t.children q → (if c = t.size then some parent else t.parent? c) = some q := by
      intro hc
      have hq := ht.child hc
      rw [if_neg (Nat.ne_of_lt (lt_size_of_parent? hq)), hq]
    split at hc
    · next hparent =>
      rcases Array.mem_push.1 hc with hc | rfl
      · exact hold hc
      · rw [if_pos rfl, hparent]
    · exact hold hc

/-- A node that is its own parent is missing in pre-order. -/
theorem Attached.notMem_rows (ht : t.Attached) {id : NodeId} (h : t.parent? id = some id) :
    id ∉ t.rows.map Row.id := by
  intro hmem
  obtain ⟨row, hrow, rfl⟩ := List.mem_map.1 hmem
  have hroot : t.parent? Tree.root ≠ some Tree.root := by
    rw [ht.root]
    exact nofun
  have hstep : ∀ q, t.parent? q ≠ some q → ∀ c ∈ t.children q, t.parent? c ≠ some c := by
    intro q hq c hc hself
    -- A node that is its own parent is listed by itself alone.
    obtain rfl : q = c := Option.some.inj ((ht.child hc).symm.trans hself)
    exact hq hself
  exact rows_forall (motive := fun id => t.parent? id ≠ some id) hroot hstep row hrow h

/-! ### Requests one after another -/

/-- Each node below the root has a parent that stands before it and lists
it once, and pre-order lists every node. -/
structure Treelike (t : Tree) : Prop where
  parent : ∀ {id : NodeId}, id < t.size → id ≠ Tree.root →
    ∃ q, t.parent? id = some q ∧ q < id ∧ (t.children q).toList.count id = 1
  listed : ∀ {id : NodeId}, id < t.size → id ∈ t.rows.map Row.id

/-- A built tree is a tree: each node has one parent, which lists it once. -/
theorem Built.treelike (ht : t.Built) : t.Treelike where
  parent := by
    intro id hlt hid
    obtain ⟨q, hq, hless, hmem⟩ := ht.ordered.parent (Array.getElem?_eq_getElem hlt) hid
    refine ⟨q, ?_, hless, ?_⟩
    · rw [parent?, Array.getElem?_eq_getElem hlt, Option.bind_some, hq]
    · have hnodup : (t.children q).toList.Nodup := (ht.ordered.increasing q).imp Nat.ne_of_lt
      exact List.count_eq_one_of_mem hnodup (Array.mem_toList_iff.2 hmem)
  listed := fun hlt => ht.ordered.rows_perm.mem_iff.2 (List.mem_range.2 hlt)

/-- In a tree whose parents stand before their children no node is its
own parent. -/
theorem Treelike.parent?_ne (ht : t.Treelike) (h : t.Attached) (id : NodeId) :
    t.parent? id ≠ some id := by
  intro hself
  have hid : id ≠ Tree.root := by
    rintro rfl
    rw [h.root] at hself
    cases hself
  obtain ⟨q, hq, hlt, -⟩ := ht.parent (lt_size_of_parent? hself) hid
  obtain rfl : q = id := Option.some.inj (hq.symm.trans hself)
  exact Nat.lt_irrefl q hlt

/-- What accepted requests make of a tree. -/
structure Accepts (t : Tree) (requests : List NodeRequest) (u : Tree) : Prop where
  size : u.size = t.size + requests.length
  attached : t.Attached → u.Attached
  /-- The parents of the nodes before are kept. -/
  parent?_old : ∀ id < t.size, u.parent? id = t.parent? id
  /-- The request for a node names its parent. -/
  parent?_new : ∀ {index : Nat} {request : NodeRequest}, requests[index]? = some request →
    u.parent? (t.size + index) = some request.parent
  built : t.Built → (∀ index request, requests[index]? = some request →
    request.parent < t.size + index) → u.Built

/-- Requests that are all accepted add their nodes in order. -/
theorem accepts_appendAll? (h : t.appendAll? requests = .ok u) : t.Accepts requests u := by
  induction requests generalizing t with
  | nil =>
      cases h
      exact ⟨rfl, id, fun _ _ => rfl, nofun, fun ht _ => ht⟩
  | cons request requests ih =>
      obtain ⟨v, hv, hu⟩ : ∃ v, t.append? request = .ok v ∧ v.appendAll? requests = .ok u := by
        rw [appendAll?, List.foldlM_cons] at h
        cases hv : t.append? request with
        | error fault =>
            rw [hv] at h
            cases h
        | ok v =>
            rw [hv] at h
            exact ⟨v, rfl, h⟩
      obtain ⟨hle, rfl⟩ := append?_eq_ok hv
      have hrest := ih hu
      have hsize := t.size_add request.parent request.kind request.position request.payload
        request.message
      refine ⟨?_, ?_, ?_, ?_, ?_⟩
      · rw [hrest.size, hsize, List.length_cons]
        omega
      · exact fun ht => hrest.attached (ht.add hle _ _ _ _)
      · intro id hlt
        rw [hrest.parent?_old id (hsize ▸ Nat.lt_succ_of_lt hlt), parent?_add,
          if_neg (Nat.ne_of_lt hlt)]
      -- The first request made the first new node, and the others made the rest.
      · intro index other hother
        cases index with
        | zero =>
            obtain rfl : request = other := Option.some.inj hother
            rw [Nat.add_zero, hrest.parent?_old _ (hsize ▸ Nat.lt_succ_self _),
              parent?_add, if_pos rfl]
        | succ index =>
            have hindex : t.size + (index + 1) = t.size + 1 + index := by omega
            rw [hindex, ← hsize]
            exact hrest.parent?_new hother
      · intro ht hbelow
        refine hrest.built (ht.add (hbelow 0 request rfl) _ _ _ _) ?_
        intro index other hother
        have hlt := hbelow (index + 1) other hother
        rw [hsize]
        omega

/-- A root that is accepted is a unit. -/
theorem exists_unit_of_ofRoot? {kind : NodeKind} {filename : String}
    (h : ofRoot? kind filename = .ok t) : t = ofRoot kind filename ∧ t.Built := by
  unfold ofRoot? at h
  split at h
  · next hkind =>
    cases h
    refine ⟨rfl, ?_⟩
    cases kind <;> try cases hkind
    · exact .unit .header filename
    · exact .unit .source filename
  · cases h

/-- Accepted requests leave every node attached to a parent that is no
later than the node. They build a tree exactly when no request asks for a
node below itself, and pre-order does not come to such a node. The first
request is for node 1. -/
theorem treelike_ofRequests?_iff {kind : NodeKind} {filename : String}
    (h : ofRequests? kind filename requests = .ok t) :
    t.size = requests.length + 1 ∧ t.Attached ∧
      (t.Treelike ↔ ∀ index request, requests[index]? = some request →
        request.parent ≠ index + 1) ∧
      ∀ index request, requests[index]? = some request → request.parent = index + 1 →
        index + 1 ∉ t.rows.map Row.id := by
  obtain ⟨s, hs, ht⟩ : ∃ s, ofRoot? kind filename = .ok s ∧ s.appendAll? requests = .ok t := by
    unfold ofRequests? at h
    cases hs : ofRoot? kind filename with
    | error fault =>
        rw [hs] at h
        cases h
    | ok s =>
        rw [hs] at h
        exact ⟨s, rfl, h⟩
  obtain ⟨rfl, hbuilt⟩ := exists_unit_of_ofRoot? hs
  have haccepts := accepts_appendAll? ht
  have hone : (ofRoot kind filename).size = 1 := rfl
  have hattached : t.Attached := haccepts.attached (attached_ofRoot kind filename)
  have hparent : ∀ index request, requests[index]? = some request →
      t.parent? (index + 1) = some request.parent := by
    intro index request hrequest
    rw [Nat.add_comm, ← hone]
    exact haccepts.parent?_new hrequest
  refine ⟨by rw [haccepts.size, hone, Nat.add_comm], hattached, ⟨?_, ?_⟩, ?_⟩
  · intro htree index request hrequest hself
    refine htree.parent?_ne hattached (index + 1) ?_
    rw [hparent index request hrequest, hself]
  · intro hothers
    refine (haccepts.built hbuilt fun index request hrequest => ?_).treelike
    -- A parent is no later than its node, and another node.
    have hlt : index + 1 < t.size := lt_size_of_parent? (hparent index request hrequest)
    obtain ⟨q, hq, hle, -⟩ := hattached.parent hlt (Nat.succ_ne_zero index)
    obtain rfl : q = request.parent :=
      Option.some.inj (hq.symm.trans (hparent index request hrequest))
    rw [hone, Nat.add_comm]
    exact Nat.lt_of_le_of_ne hle (hothers index request hrequest)
  · intro index request hrequest hself
    refine hattached.notMem_rows ?_
    rw [hparent index request hrequest, hself]

/-- A node that is below itself is accepted, and so are nodes below it. -/
theorem treelike_ofRequests?_iff_detached :
    let requests : List NodeRequest := [⟨0, .datatype, ⟨1, 1⟩, none, none⟩,
      ⟨2, .error, ⟨1, 5⟩, some "[", some "unexpected token"⟩,
      ⟨2, .identifier, ⟨1, 7⟩, some "x", none⟩]
    ∃ t, ofRequests? .sourceUnit "unit.c" requests = .ok t ∧ t.rows.map Row.id = [0, 1] ∧
      t.size = 4 ∧ t.Attached ∧ ¬t.Treelike ∧ 2 ∉ t.rows.map Row.id := by
  intro requests
  obtain ⟨t, ht, hrows⟩ : ∃ t, ofRequests? .sourceUnit "unit.c" requests = .ok t ∧
      t.rows.map Row.id = [0, 1] := ⟨_, rfl, rfl⟩
  obtain ⟨hsize, hattached, htree, hmissing⟩ := treelike_ofRequests?_iff ht
  refine ⟨t, ht, hrows, hsize, hattached, ?_, hmissing 1 _ rfl rfl⟩
  exact fun h => htree.1 h 1 _ rfl rfl

/-- A node that is appended below itself is accepted, and the tree does
not reach it. -/
theorem ofRequests?_not_treelike :
    let t := (ofRoot .sourceUnit "test.c").add 1 .datatype ⟨1, 1⟩ none none
    ofRequests? .sourceUnit "test.c" [⟨1, .datatype, ⟨1, 1⟩, none, none⟩] = .ok t ∧
      t.size = 2 ∧ t.parent? 1 = some 1 ∧ t.rows = [⟨0, 0⟩] ∧ ¬t.Treelike := by
  intro t
  refine ⟨rfl, rfl, rfl, rfl, fun h => ?_⟩
  have hlt : 1 < t.size := Nat.one_lt_two
  have hlisted : 1 ∈ t.rows.map Row.id := h.listed hlt
  revert hlisted
  decide

end Tree

end CDeclarations
