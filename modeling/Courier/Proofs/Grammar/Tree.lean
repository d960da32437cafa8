/-
Courier.Proofs.Grammar.Tree — trees of commands, whatever their depth.

A node of a tree has a place: the index of a child at each step from the root (`Node.at?`), with a
child passed at each of them (`Node.way`). Trees are gone through by `Node.induction`: what holds
of a node whenever it holds of its children holds of every node.

A tree is built if and only if no node of it has two names of children that are the same
(`build_cases`). The search for such names is a recursion of its own, which goes below a child
before it compares the child's names. In a tree that is built the way to a node can be said in any
of the names on it (`descend?_way`). No names are needed to tell the leaves apart: they are listed
by their places, which ascend (`exists_listsLeaves`).
-/
import Courier.Proofs.Grammar.Resolution
import Courier.Proofs.Grammar.Spelling
import Mathlib.Data.List.Forall2

namespace Courier.Grammar

/-! ## Places -/

theorem CommandSpec.sizeOf_lt_of_mem {s c : CommandSpec} (h : c ∈ s.children) :
    sizeOf c < sizeOf s := by
  cases s
  have hsmaller := List.sizeOf_lt_of_mem h
  dsimp only at hsmaller
  simp only [CommandSpec.mk.sizeOf_spec]
  omega

/-- What holds of a spec whenever it holds of its children holds of every spec. -/
theorem CommandSpec.induction {motive : CommandSpec → Prop}
    (step : ∀ s : CommandSpec, (∀ c ∈ s.children, motive c) → motive s) (s : CommandSpec) :
    motive s :=
  step s fun c hc =>
    have : sizeOf c < sizeOf s := sizeOf_lt_of_mem hc
    CommandSpec.induction step c
termination_by sizeOf s

namespace Node

/-- What holds of a node whenever it holds of its children holds of every node. -/
theorem induction {motive : Node → Prop}
    (step : ∀ n : Node, (∀ c ∈ n.children, motive c) → motive n) (n : Node) : motive n := by
  obtain ⟨spec, path⟩ := n
  induction spec using CommandSpec.induction generalizing path with
  | step spec ih =>
    refine step ⟨spec, path⟩ fun c hc => ?_
    obtain ⟨child, hchild, rfl⟩ := List.mem_map.mp hc
    exact ih child hchild _

/-- The node at a place below a node, which is told by the index of a child at each step. -/
def at? (n : Node) : List Nat → Option Node
  | [] => some n
  | i :: place => n.children[i]?.bind fun c => c.at? place

/-- The children that are passed on the way to a place. -/
def way (n : Node) : List Nat → List Node
  | [] => []
  | i :: place => n.children[i]?.elim [] fun c => c :: c.way place

theorem at?_cons_eq_some {n m : Node} {i : Nat} {place : List Nat} :
    n.at? (i :: place) = some m ↔ ∃ c, n.children[i]? = some c ∧ c.at? place = some m := by
  rw [at?, Option.bind_eq_some_iff]

/-- What holds at every place holds of a node and at every place below its children. -/
theorem forall_at? {n : Node} {P : Node → Prop} :
    (∀ place m, n.at? place = some m → P m) ↔
      P n ∧ ∀ c ∈ n.children, ∀ place m, c.at? place = some m → P m := by
  constructor
  · intro h
    refine ⟨h [] n rfl, fun c hc place m hm => ?_⟩
    obtain ⟨i, hi⟩ := List.mem_iff_getElem?.mp hc
    exact h (i :: place) m (at?_cons_eq_some.mpr ⟨c, hi, hm⟩)
  · rintro ⟨hn, hbelow⟩ place m hm
    cases place with
    | nil =>
      cases hm
      exact hn
    | cons i place =>
      obtain ⟨c, hi, hm⟩ := at?_cons_eq_some.mp hm
      exact hbelow c (List.mem_of_getElem? hi) place m hm

/-- A path is that of the root and the main names on the way. -/
theorem path_of_at? {n m : Node} {place : List Nat} (h : n.at? place = some m) :
    m.path = n.path ++ (n.way place).map fun c => c.spec.name := by
  induction place generalizing n with
  | nil =>
    cases h
    simp [way]
  | cons i place ih =>
    obtain ⟨c, hi, hm⟩ := at?_cons_eq_some.mp h
    obtain ⟨child, -, rfl⟩ := List.mem_map.mp (List.mem_of_getElem? hi)
    rw [ih hm, way, hi]
    simp [below]

/-! ## Names -/

/-- No other string is a name of a child. -/
theorem child?_eq_none_iff {n : Node} {name : String} :
    n.child? name = none ↔ name ∉ n.childNames := by
  rw [child?, List.find?_eq_none, childNames, List.mem_flatMap]
  constructor
  · rintro h ⟨c, hc, hname⟩
    exact h (n.below c) (List.mem_map_of_mem hc) (by simpa [below] using hname)
  · intro h c hc hbears
    obtain ⟨child, hchild, rfl⟩ := List.mem_map.mp hc
    exact h ⟨child, hchild, by simpa [below] using hbears⟩

/-- Where the names of children are different, each of them leads to its child. -/
theorem child?_of_mem {n c : Node} (h : n.childNames.Nodup) (hc : c ∈ n.children) {name : String}
    (hname : name ∈ c.spec.names) : n.child? name = some c := by
  obtain ⟨child, hchild, rfl⟩ := List.mem_map.mp hc
  cases hfound : n.child? name with
  | none =>
    have hmem : name ∈ n.childNames := List.mem_flatMap.mpr ⟨child, hchild, hname⟩
    exact absurd hmem (child?_eq_none_iff.mp hfound)
  | some d =>
    obtain ⟨other, hother, rfl⟩ := List.mem_map.mp (List.mem_of_find?_eq_some hfound)
    have hbears : name ∈ other.names := by simpa [below] using List.find?_some hfound
    rw [eq_of_nodup_flatMap h hother hchild hbears hname]

/-- The way to a node can be said in any of the names on it. -/
theorem descend?_way {n m : Node} (h : ∀ place m, n.at? place = some m → m.childNames.Nodup)
    {place : List Nat} (hm : n.at? place = some m) {names : List String}
    (hnames : List.Forall₂ (fun name (c : Node) => name ∈ c.spec.names) names (n.way place)) :
    n.descend? names = some m := by
  induction place generalizing n names with
  | nil =>
    cases hnames
    exact hm
  | cons i place ih =>
    obtain ⟨c, hi, hm⟩ := at?_cons_eq_some.mp hm
    obtain ⟨hn, hbelow⟩ := forall_at?.mp h
    have hc := List.mem_of_getElem? hi
    rw [way, hi] at hnames
    cases hnames with
    | cons hname hnames =>
      rw [descend?, child?_of_mem hn hc hname]
      exact ih (hbelow c hc) hm hnames

/-! ## Leaves -/

theorem leaves_eq (n : Node) :
    n.leaves = if n.isLeaf then [n] else n.children.flatMap leaves := by
  have hbelow (path : List String) (cs : List CommandSpec) :
      leavesBelow path cs = cs.flatMap fun c => leavesAt (path ++ [c.name]) c := by
    induction cs with
    | nil => rfl
    | cons c cs ih => rw [leavesBelow, ih, List.flatMap_cons]
  obtain ⟨⟨name, aliases, help, args, rest, opts, children, literal, kind⟩, path⟩ := n
  cases children with
  | nil => simp [leaves, leavesAt, isLeaf, CommandSpec.isLeaf]
  | cons c cs =>
    rw [leaves, leavesAt, hbelow, children, List.flatMap_map]
    rfl

/-- Places list the leaves of a tree: they ascend, so that none occurs twice and those below a
child come before those below a later one, and they are the places of all leaves. -/
structure ListsLeaves (n : Node) (places : List (List Nat)) : Prop where
  ordered : places.Pairwise (· < ·)
  listed : places.map n.at? = n.leaves.map some
  complete : ∀ place, place ∈ places ↔ ∃ m, n.at? place = some m ∧ m.isLeaf = true

theorem listsLeaves_of_isLeaf {n : Node} (h : n.isLeaf = true) : n.ListsLeaves [[]] where
  ordered := List.pairwise_singleton _ _
  listed := by
    rw [leaves_eq, if_pos h]
    rfl
  complete := by
    have hchildren : n.children = [] := by
      simpa [isLeaf, CommandSpec.isLeaf, children] using h
    intro place
    cases place with
    | nil => simp [at?, h]
    | cons i place => simp [at?, hchildren]

/-- Of a group, the leaves below each child are listed behind the index of the child. -/
theorem listsLeaves_of_children {n : Node} (h : ¬ n.isLeaf = true) {places : Node → List (List Nat)}
    (hplaces : ∀ c ∈ n.children, c.ListsLeaves (places c)) :
    n.ListsLeaves (n.children.zipIdx.flatMap fun x => (places x.1).map (x.2 :: ·)) where
  ordered := by
    rw [List.pairwise_flatMap]
    constructor
    · intro x hx
      rw [List.pairwise_map]
      have hc := List.mem_of_getElem? (List.mem_zipIdx_iff_getElem?.mp hx)
      exact (hplaces x.1 hc).ordered.imp fun h => List.cons_lt_cons_iff.mpr (.inr ⟨rfl, h⟩)
    · have hindex : n.children.zipIdx.Pairwise fun x y => x.2 < y.2 := by
        rw [← List.pairwise_map (f := Prod.snd), List.zipIdx_map_snd]
        exact List.pairwise_lt_range' 1
      refine hindex.imp fun hxy p hp q hq => ?_
      obtain ⟨p, -, rfl⟩ := List.mem_map.mp hp
      obtain ⟨q, -, rfl⟩ := List.mem_map.mp hq
      exact List.cons_lt_cons_iff.mpr (.inl hxy)
  listed := by
    have hchildren :
        n.children.flatMap leaves = n.children.zipIdx.flatMap fun x => x.1.leaves := by
      conv_lhs => rw [← List.zipIdx_map_fst 0 n.children, List.flatMap_map]
    rw [List.map_flatMap, leaves_eq, if_neg h, hchildren, List.map_flatMap]
    refine List.flatMap_congr fun x hx => ?_
    have hi := List.mem_zipIdx_iff_getElem?.mp hx
    rw [← (hplaces x.1 (List.mem_of_getElem? hi)).listed, List.map_map]
    refine List.map_congr_left fun p _ => ?_
    rw [Function.comp_apply, at?, hi]
    rfl
  complete := by
    intro place
    rw [List.mem_flatMap]
    constructor
    · rintro ⟨⟨c, i⟩, hx, hplace⟩
      obtain ⟨p, hp, rfl⟩ := List.mem_map.mp hplace
      have hi := List.mem_zipIdx_iff_getElem?.mp hx
      obtain ⟨m, hm, hleaf⟩ := ((hplaces c (List.mem_of_getElem? hi)).complete p).mp hp
      exact ⟨m, at?_cons_eq_some.mpr ⟨c, hi, hm⟩, hleaf⟩
    · rintro ⟨m, hm, hleaf⟩
      cases place with
      | nil =>
        cases hm
        exact absurd hleaf h
      | cons i p =>
        obtain ⟨c, hi, hm⟩ := at?_cons_eq_some.mp hm
        have hp := ((hplaces c (List.mem_of_getElem? hi)).complete p).mpr ⟨m, hm, hleaf⟩
        exact ⟨(c, i), List.mem_zipIdx_iff_getElem?.mpr hi, List.mem_map_of_mem hp⟩

theorem exists_listsLeaves (n : Node) : ∃ places, n.ListsLeaves places := by
  induction n using induction with
  | step n ih =>
    by_cases hleaf : n.isLeaf = true
    · exact ⟨_, listsLeaves_of_isLeaf hleaf⟩
    · choose! places hplaces using ih
      exact ⟨_, listsLeaves_of_children hleaf hplaces⟩

end Node

/-! ## Names that occur twice -/

/-- The search in a list: no name occurs twice, or again behind those seen, or it finds one that
does. -/
theorem firstRepeated?_cases (seen ns : List String) :
    (firstRepeated? seen ns = none ∧ ns.Nodup ∧ ∀ name ∈ ns, name ∉ seen) ∨
    ∃ name, firstRepeated? seen ns = some name ∧ 1 < (seen ++ ns).count name := by
  induction ns generalizing seen with
  | nil => exact .inl ⟨rfl, List.nodup_nil, nofun⟩
  | cons n ns ih =>
    by_cases hn : n ∈ seen
    · refine .inr ⟨n, by simp [firstRepeated?, hn], ?_⟩
      have hseen : 0 < seen.count n := List.count_pos_iff.mpr hn
      rw [List.count_append, List.count_cons_self]
      omega
    · have hstep : firstRepeated? seen (n :: ns) = firstRepeated? (n :: seen) ns := by
        simp [firstRepeated?, hn]
      obtain ⟨hnone, hnodup, hnew⟩ | ⟨name, hsome, hcount⟩ := ih (n :: seen)
      · refine .inl ⟨hstep.trans hnone, List.nodup_cons.mpr ⟨fun hmem => ?_, hnodup⟩,
          List.forall_mem_cons.mpr ⟨hn, fun name hname hseen => ?_⟩⟩
        · exact hnew n hmem List.mem_cons_self
        · exact hnew name hname (List.mem_cons_of_mem n hseen)
      · refine .inr ⟨name, hstep.trans hsome, ?_⟩
        rw [List.perm_middle.count_eq]
        exact hcount

/-- The search among children, with what it does below each of them. -/
theorem repeatedAmong?_cases (path seen : List String) (cs : List CommandSpec) :
    (repeatedAmong? path seen cs = none ∧
      (∀ c ∈ cs, repeatedBelow? (path ++ [c.name]) c = none) ∧
      (cs.flatMap CommandSpec.names).Nodup ∧
      ∀ name ∈ cs.flatMap CommandSpec.names, name ∉ seen) ∨
    ∃ r, repeatedAmong? path seen cs = some r ∧
      ((∃ c ∈ cs, repeatedBelow? (path ++ [c.name]) c = some r) ∨
        r.path = path ∧ 1 < (seen ++ cs.flatMap CommandSpec.names).count r.name) := by
  induction cs generalizing seen with
  | nil => exact .inl ⟨rfl, nofun, List.nodup_nil, nofun⟩
  | cons c cs ih =>
    rw [repeatedAmong?, List.flatMap_cons]
    cases hbelow : repeatedBelow? (path ++ [c.name]) c with
    | some r => exact .inr ⟨r, rfl, .inl ⟨c, List.mem_cons_self, hbelow⟩⟩
    | none =>
      obtain ⟨hfirst, hnodup, hnew⟩ | ⟨name, hfirst, hcount⟩ := firstRepeated?_cases seen c.names
      · rw [hfirst]
        obtain ⟨hrest, hbelows, hnodups, hnews⟩ | ⟨r, hrest, hr⟩ := ih (seen ++ c.names)
        · refine .inl ⟨hrest, List.forall_mem_cons.mpr ⟨hbelow, hbelows⟩,
            List.nodup_append.mpr ⟨hnodup, hnodups, fun a ha b hb hab => ?_⟩, fun name hname => ?_⟩
          · exact hnews b hb (List.mem_append_right seen (hab ▸ ha))
          · rcases List.mem_append.mp hname with hname | hname
            · exact hnew name hname
            · exact fun hseen => hnews name hname (List.mem_append_left _ hseen)
        · refine .inr ⟨r, hrest, hr.imp ?_ ?_⟩
          · rintro ⟨d, hd, hfound⟩
            exact ⟨d, List.mem_cons_of_mem c hd, hfound⟩
          · rintro ⟨hpath, hcount⟩
            rw [← List.append_assoc]
            exact ⟨hpath, hcount⟩
      · rw [hfirst]
        refine .inr ⟨⟨name, path⟩, rfl, .inr ⟨rfl, ?_⟩⟩
        rw [← List.append_assoc, List.count_append]
        exact Nat.lt_add_right _ hcount

theorem repeatedBelow?_eq (path : List String) (s : CommandSpec) :
    repeatedBelow? path s = repeatedAmong? path [] s.children := by
  cases s
  rw [repeatedBelow?]

namespace Node

/-- The search in a tree: the names of children are different at every node, or it finds one that
is there twice, with the path of the node. -/
theorem repeatedBelow?_cases (n : Node) :
    (repeatedBelow? n.path n.spec = none ∧
      ∀ place m, n.at? place = some m → m.childNames.Nodup) ∨
    ∃ r, repeatedBelow? n.path n.spec = some r ∧
      ∃ place m, n.at? place = some m ∧ r.path = m.path ∧ 1 < m.childNames.count r.name := by
  induction n using induction with
  | step n ih =>
    rw [repeatedBelow?_eq]
    obtain ⟨hnone, hbelow, hnodup, -⟩ | ⟨r, hr, hwhere⟩ :=
      repeatedAmong?_cases n.path [] n.spec.children
    · refine .inl ⟨hnone, forall_at?.mpr ⟨hnodup, fun c hc => ?_⟩⟩
      obtain ⟨child, hchild, rfl⟩ := List.mem_map.mp hc
      obtain ⟨-, hall⟩ | ⟨r, hr, -⟩ := ih _ hc
      · exact hall
      · exact nomatch hr.symm.trans (hbelow child hchild)
    · refine .inr ⟨r, hr, ?_⟩
      obtain ⟨child, hchild, hbelow⟩ | ⟨hpath, hcount⟩ := hwhere
      · have hc : n.below child ∈ n.children := List.mem_map_of_mem hchild
        obtain ⟨hnone, -⟩ | ⟨r', hr', place, m, hm, hpath, hcount⟩ := ih _ hc
        · exact nomatch hnone.symm.trans hbelow
        · obtain rfl : r' = r := Option.some.inj (hr'.symm.trans hbelow)
          obtain ⟨i, hi⟩ := List.mem_iff_getElem?.mp hc
          exact ⟨i :: place, m, at?_cons_eq_some.mpr ⟨_, hi, hm⟩, hpath, hcount⟩
      · exact ⟨[], n, rfl, hpath, hcount⟩

/-- A tree is built as it is described, or refused for a name that is at fault. -/
theorem build_cases (n : Node) :
    (build n.spec n.path = .ok n ∧ ∀ place m, n.at? place = some m → m.childNames.Nodup) ∨
    ∃ r, build n.spec n.path = .error r ∧
      ∃ place m, n.at? place = some m ∧ r.path = m.path ∧ 1 < m.childNames.count r.name := by
  obtain ⟨hnone, hall⟩ | ⟨r, hr, hwhere⟩ := repeatedBelow?_cases n
  · exact .inl ⟨by rw [build, hnone], hall⟩
  · exact .inr ⟨r, by rw [build, hr], hwhere⟩

end Node

/-- **A tree is built as it is described.** For every description of commands, of any depth, and
every path to it: building the tree fails if and only if at some node of it the names of the
children, with their other names, have a repetition, and then the failure has the path of such a
node and a name that is there twice. Otherwise the tree is the one that is described. Every node
has the path of the root and behind it the main names on the way; it is reached by any names of the
commands on the way, one for each; and a string leads from it to no child if and only if it is none
of the names of its children. The leaves that are listed are those nodes of the tree that are
leaves, each of them once, in the order in which they are described. -/
theorem tree_is_built_as_described (spec : CommandSpec) (path : List String) :
    let root : Node := ⟨spec, path⟩
    ((∃ r, Node.build spec path = .error r) ↔
      ∃ place n, root.at? place = some n ∧ ¬ n.childNames.Nodup) ∧
    (∀ r, Node.build spec path = .error r →
      ∃ place n, root.at? place = some n ∧ r.path = n.path ∧ 1 < n.childNames.count r.name) ∧
    ∀ tree, Node.build spec path = .ok tree →
      tree = root ∧
      (∀ place n, tree.at? place = some n →
        n.path = path ++ (tree.way place).map (fun c => c.spec.name) ∧
        (∀ names, List.Forall₂ (fun name (c : Node) => name ∈ c.spec.names) names (tree.way place) →
          tree.descend? names = some n) ∧
        ∀ name, n.child? name = none ↔ name ∉ n.childNames) ∧
      ∃ places, tree.ListsLeaves places := by
  intro root
  obtain ⟨hbuilt, hall⟩ | ⟨r, hr, place, n, hn, hpath, hcount⟩ := Node.build_cases root
  · refine ⟨iff_of_false ?_ ?_, ?_, ?_⟩
    · rintro ⟨r, hr⟩
      exact nomatch hbuilt.symm.trans hr
    · rintro ⟨place, n, hn, hrepeated⟩
      exact hrepeated (hall place n hn)
    · intro r hr
      exact nomatch hbuilt.symm.trans hr
    · intro tree htree
      obtain rfl : root = tree := Except.ok.inj (hbuilt.symm.trans htree)
      refine ⟨rfl, fun place n hn => ⟨Node.path_of_at? hn, fun names hnames => ?_, fun name => ?_⟩,
        Node.exists_listsLeaves root⟩
      · exact Node.descend?_way hall hn hnames
      · exact Node.child?_eq_none_iff
  · have hrepeated : ¬ n.childNames.Nodup := by
      intro hnodup
      have hone := List.nodup_iff_count_le_one.mp hnodup r.name
      omega
    refine ⟨iff_of_true ⟨r, hr⟩ ⟨place, n, hn, hrepeated⟩, ?_, ?_⟩
    · intro r' hr'
      obtain rfl : r = r' := Except.error.inj (hr.symm.trans hr')
      exact ⟨place, n, hn, hpath, hcount⟩
    · intro tree htree
      exact nomatch hr.symm.trans htree

/-- A command with other names below a group that has one, and a group in which the other name of
a command is the name of the next one. -/
theorem tree_is_built_as_described_with_aliases :
    let requests : CommandSpec := { name := "requests", aliases := ["r", "req"] }
    let group : CommandSpec :=
      { name := "print", aliases := ["p"], children := [{ name := "options" }, requests] }
    let spec : CommandSpec := { name := "", children := [group, { name := "exit" }] }
    let clash : CommandSpec := { name := "print", children := [requests, { name := "r" }] }
    (∃ tree, Node.build spec [] = .ok tree ∧
      (∀ name ∈ ["requests", "r", "req"],
        tree.descend? ["p", name] = some ⟨requests, ["print", "requests"]⟩) ∧
      tree.leaves.map Node.path = [["print", "options"], ["print", "requests"], ["exit"]]) ∧
    ∃ r, Node.build clash ["print"] = .error r ∧ r.path = ["print"] ∧ r.name = "r" := by
  intro requests group spec clash
  constructor
  · refine ⟨⟨spec, []⟩, rfl, fun name hname => ?_, rfl⟩
    obtain ⟨-, hnodes, -⟩ := (tree_is_built_as_described spec []).2.2 ⟨spec, []⟩ rfl
    obtain ⟨-, hdescend, -⟩ := hnodes [0, 1] ⟨requests, ["print", "requests"]⟩ rfl
    exact hdescend ["p", name] (.cons (by decide) (.cons hname .nil))
  · obtain ⟨r, hr⟩ := (tree_is_built_as_described clash ["print"]).1.mpr
      ⟨[], ⟨clash, ["print"]⟩, rfl, by decide⟩
    refine ⟨r, hr, ?_⟩
    cases hr
    exact ⟨rfl, rfl⟩

end Courier.Grammar
