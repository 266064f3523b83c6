import SqlTree.Proofs.Ident

/-! # The order of a walk

A walk takes the top of its stack and puts the children in its place. What is still to be met is
then the pre-order of the nodes on the stack, one after the other, which is what each step keeps but
for the node that it yields.

A node can stand at several places in a tree. A place is given by the path to it: the positions of
the children to go down to. Paths are in the order of words, a path before those that go on from
it.

Main definitions:

* `Walk.Yields`: a run of a walk.
* `Node.at?`, `Node.paths`: the node at the end of a path, and all paths.
* `Node.InTreeOrder`: a list with every node once for each of its places, in the order of the paths.

Main statements:

* `Walk.Yields.rest_eq`: what a run yields and what it leaves over.
* `Walk.exists_yields_iff`: a walk ends, and with one list of nodes.
* `Node.inTreeOrder_preorder`: the pre-order of a tree.
* `Node.yields_iff_preorder`: a walk yields the pre-order, and what is found by a walk is found
  in it.
-/

namespace SqlTree.Node

namespace Walk

/-- The walk `w` yields the nodes one after the other and becomes the walk `w'`. -/
inductive Yields : Walk → List Node → Walk → Prop
  | refl (w : Walk) : Yields w [] w
  | step {w w' w'' : Walk} {n : Node} {ns : List Node} (h : w.next? = some (n, w'))
      (hns : Yields w' ns w'') : Yields w (n :: ns) w''

/-- A run yields the first of the nodes that were to be met. -/
theorem Yields.rest_eq {w w' : Walk} {ns : List Node} (h : w.Yields ns w') :
    w.rest = ns ++ w'.rest := by
  induction h with
  | refl w => rfl
  | step h _ ih => rw [rest_of_next? h, ih, List.cons_append]

theorem exists_yields_rest (w : Walk) : ∃ w', w.Yields w.rest w' ∧ w'.next? = none := by
  -- The induction is on the collection of the nodes, which takes the same steps.
  fun_induction toList w with
  | case1 w h =>
    rw [rest_of_next?_eq_none h]
    exact ⟨w, .refl w, h⟩
  | case2 w n w' h ih =>
    obtain ⟨w'', hyields, hend⟩ := ih
    rw [rest_of_next? h]
    exact ⟨w'', .step h hyields, hend⟩

/-- A walk comes to its end, and it has yielded all that was to be met and nothing else then. -/
theorem exists_yields_iff {w : Walk} {ns : List Node} :
    (∃ w', w.Yields ns w' ∧ w'.next? = none) ↔ ns = w.rest := by
  constructor
  · rintro ⟨w', hyields, hend⟩
    rw [hyields.rest_eq, rest_of_next?_eq_none hend, List.append_nil]
  · rintro rfl
    exact w.exists_yields_rest

theorem forEach_eq {m : Type → Type} [Monad m] (w : Walk) (action : Node → m Unit) :
    w.forEach action = w.rest.forM action := by
  fun_induction forEach w action with
  | case1 w h =>
    rw [rest_of_next?_eq_none h]
    rfl
  | case2 w n w' h ih =>
    rw [rest_of_next? h, ih]
    rfl

end Walk

/-! Places in a tree. -/

theorem childInduction {P : Node → Prop} (h : ∀ n, (∀ c ∈ n.children, P c) → P n) (n : Node) :
    P n :=
  h n fun c _ => childInduction h c
termination_by n.weight
decreasing_by exact weight_lt_of_mem_children (by assumption)

/-- The node at the end of a path. -/
def at? (n : Node) : List Nat → Option Node
  | [] => some n
  | i :: p => n.children[i]?.bind fun c => c.at? p

/-- The paths of a tree: the empty one, and those that go on from each child. -/
def paths (n : Node) : List (List Nat) :=
  [] :: n.children.zipIdx.attach.flatMap fun c => (paths c.1.1).map (c.1.2 :: ·)
termination_by n.weight
decreasing_by exact weight_lt_of_mem_children (List.fst_mem_of_mem_zipIdx c.2)

theorem paths_eq (n : Node) :
    n.paths = [] :: n.children.zipIdx.flatMap fun c => c.1.paths.map (c.2 :: ·) := by
  rw [paths, List.flatMap_subtype (g := fun c => c.1.paths.map (c.2 :: ·)) (fun _ _ => rfl),
    List.unattach_attach]

/-- The list has every node at and below `n` once for each place at which it stands: a node before
the ones below it, and these from left to right. -/
def InTreeOrder (n : Node) (ns : List Node) : Prop :=
  ∃ paths : List (List Nat), (∀ p, p ∈ paths ↔ (n.at? p).isSome) ∧
    paths.Pairwise (List.Lex (· < ·)) ∧ paths.map n.at? = ns.map some

theorem mem_paths_cons {n : Node} {i : Nat} {p : List Nat} :
    i :: p ∈ n.paths ↔ ∃ c, n.children[i]? = some c ∧ p ∈ c.paths := by
  rw [paths_eq]
  simp [List.mem_flatMap, List.mem_zipIdx_iff_getElem?]

theorem mem_paths {n : Node} {p : List Nat} : p ∈ n.paths ↔ (n.at? p).isSome := by
  induction p generalizing n with
  | nil =>
    rw [paths_eq]
    simp [at?]
  | cons i p ih =>
    rw [mem_paths_cons, at?]
    cases n.children[i]? <;> simp [ih]

theorem pairwise_paths (n : Node) : n.paths.Pairwise (List.Lex (· < ·)) := by
  induction n using childInduction with
  | h n ih =>
    rw [paths_eq, List.pairwise_cons, List.pairwise_flatMap]
    refine ⟨?_, ?_, ?_⟩
    · intro p hp
      obtain ⟨c, -, hp⟩ := List.mem_flatMap.1 hp
      obtain ⟨q, -, rfl⟩ := List.mem_map.1 hp
      exact .nil
    · intro c hc
      rw [List.pairwise_map]
      exact (ih c.1 (List.fst_mem_of_mem_zipIdx hc)).imp fun h => .cons h
    · have hindex : n.children.zipIdx.Pairwise fun c d => c.2 < d.2 := by
        rw [← List.pairwise_map (f := Prod.snd), List.zipIdx_map_snd]
        exact List.pairwise_lt_range'
      refine hindex.imp fun hlt p hp q hq => ?_
      obtain ⟨p, -, rfl⟩ := List.mem_map.1 hp
      obtain ⟨q, -, rfl⟩ := List.mem_map.1 hq
      exact .rel hlt

/-- The nodes at the ends of the paths are the pre-order. -/
theorem map_at?_paths (n : Node) : n.paths.map n.at? = n.preorder.map some := by
  induction n using childInduction with
  | h n ih =>
    have hchild : ∀ c ∈ n.children.zipIdx,
        (c.1.paths.map (c.2 :: ·)).map n.at? = c.1.preorder.map some := by
      intro c hc
      rw [← ih c.1 (List.fst_mem_of_mem_zipIdx hc), List.map_map]
      refine List.map_congr_left fun p _ => ?_
      simp [at?, List.mem_zipIdx_iff_getElem?.1 hc]
    have hindexed : n.children.zipIdx.flatMap (fun c => c.1.preorder.map some) =
        n.children.flatMap fun c => c.preorder.map some := by
      nth_rewrite 2 [← List.zipIdx_map_fst 0 n.children]
      rw [List.flatMap_map]
    rw [paths_eq, preorder_eq n, List.map_cons, List.map_cons, List.map_flatMap, List.map_flatMap,
      List.flatMap_congr hchild, hindexed]
    rfl

theorem inTreeOrder_preorder (n : Node) : n.InTreeOrder n.preorder :=
  ⟨n.paths, fun _ => mem_paths, n.pairwise_paths, n.map_at?_paths⟩

/-- A walk from a node comes to its end with the pre-order of the node, which is the node before
those at and below its children, and has every node once for each place at which it stands. All
that is found by a walk is found in this list. -/
theorem yields_iff_preorder (n : Node) :
    (∀ ns, (∃ w, (Walk.start n).Yields ns w ∧ w.next? = none) ↔ ns = n.preorder) ∧
      n.preorder = n :: n.children.flatMap preorder ∧ n.InTreeOrder n.preorder ∧
      n.walk = n.preorder ∧
      (∀ {m : Type → Type} [Monad m] (action : Node → m Unit),
        n.visit action = n.preorder.forM action) ∧
      ∀ p : Node → Bool, n.findAll p = n.preorder.filter p ∧ n.count p = n.preorder.countP p ∧
        (n.contains p = true ↔ ∃ m ∈ n.preorder, p m = true) := by
  refine ⟨fun ns => ?_, n.preorder_eq, n.inTreeOrder_preorder, n.walk_eq_preorder, ?_, ?_⟩
  · rw [Walk.exists_yields_iff, Walk.rest_start]
  · intro m _ action
    rw [visit, Walk.forEach_eq, Walk.rest_start]
  · intro p
    rw [findAll, count, contains, walk_eq_preorder, List.any_eq_true]
    exact ⟨rfl, rfl, Iff.rfl⟩

end SqlTree.Node
