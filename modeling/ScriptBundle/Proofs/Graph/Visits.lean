import Mathlib.Data.Nat.Find
import Mathlib.Order.Bounds.Defs
import ScriptBundle.Proofs.Graph.PostOrder

/-!
# Visits

What a depth-first search does with a list of nodes, told as a whole: it comes to the nodes one
after the other, goes below each one that it has not seen, and finishes it behind everything it has
found there. The tasks of `Digraph.finishOrder` are another way to say the same, one step at a time.

What has been seen is never forgotten, and each node that is finished has had all of its neighbours
seen. So the nodes of a list, taken up to some place in it, and all that can be reached from them
are finished before anything else is.

## Main definitions

* `Visits`: which nodes a search has seen behind a list of nodes, and the order in which it has
  finished them;
* `Digraph.IsSeed`: the smallest node from which a node can be reached.

## Main statements

* `Visits.unique`, `Digraph.exists_visits`: a search comes to exactly one result;
* `Digraph.finishOrder_visits`, `Digraph.visits_postOrder`: what the tasks of a search amount to;
* `Digraph.sublist_postOrder_of_seed_lt`: nodes with a smaller seed come first in the post-order.
-/

namespace ScriptBundle

/-- What a **search** does that comes to the nodes `ns` with `seen` behind it, where `next` lists
the neighbours of a node: what it has seen in the end, and in which order it finishes nodes. -/
inductive Visits (next : Nat → List Nat) : (seen ns seen' order : List Nat) → Prop where
  | nil (seen : List Nat) : Visits next seen [] seen []
  | skip {n : Nat} {seen rest seen' order : List Nat} (hn : n ∈ seen)
    (hrest : Visits next seen rest seen' order) : Visits next seen (n :: rest) seen' order
  | visit {n : Nat} {seen rest inner outer below behind : List Nat} (hn : n ∉ seen)
    (hbelow : Visits next (n :: seen) (next n) inner below)
    (hrest : Visits next inner rest outer behind) :
    Visits next seen (n :: rest) outer (below ++ n :: behind)

namespace Visits

variable {next : Nat → List Nat} {seen ns seen' order : List Nat}

/-- A search comes to one result. -/
theorem unique {seen'' order' : List Nat} (h : Visits next seen ns seen' order)
    (h' : Visits next seen ns seen'' order') : seen' = seen'' ∧ order = order' := by
  induction h generalizing seen'' order' with
  | nil seen =>
    cases h'
    exact ⟨rfl, rfl⟩
  | skip hn _ ih =>
    cases h' with
    | skip _ hrest => exact ih hrest
    | visit hnew => exact absurd hn hnew
  | visit hn _ _ ihbelow ihrest =>
    cases h' with
    | skip hold => exact absurd hold hn
    | visit _ hbelow hrest =>
      obtain ⟨rfl, rfl⟩ := ihbelow hbelow
      obtain ⟨rfl, rfl⟩ := ihrest hrest
      exact ⟨rfl, rfl⟩

/-- A search depends on the neighbours of nodes that it can come to, and on no others. -/
theorem congr {next' : Nat → List Nat} (p : Nat → Prop) (hsame : ∀ n, p n → next n = next' n)
    (hkept : ∀ n, p n → ∀ m ∈ next n, p m) (hns : ∀ n ∈ ns, p n)
    (h : Visits next seen ns seen' order) : Visits next' seen ns seen' order := by
  induction h with
  | nil seen => exact .nil seen
  | skip hn _ ih => exact .skip hn (ih fun m hm => hns m (List.mem_cons_of_mem _ hm))
  | @visit n _ rest _ _ _ _ hn _ _ ihbelow ihrest =>
    have hp : p n := hns n List.mem_cons_self
    have hbelow := ihbelow (hkept n hp)
    rw [hsame n hp] at hbelow
    exact .visit hn hbelow (ihrest fun m hm => hns m (List.mem_cons_of_mem _ hm))

/-- What has been seen is what had been seen before and what is finished. -/
theorem mem_seen_iff (h : Visits next seen ns seen' order) {m : Nat} :
    m ∈ seen' ↔ m ∈ seen ∨ m ∈ order := by
  induction h with
  | nil => simp
  | skip _ _ ih => exact ih
  | visit _ _ _ ihbelow ihrest =>
    rw [ihrest, ihbelow, List.mem_append, List.mem_cons, List.mem_cons]
    grind

/-- The nodes that a search comes to have been seen. -/
theorem mem_seen_of_mem (h : Visits next seen ns seen' order) {n : Nat} (hn : n ∈ ns) :
    n ∈ seen' := by
  induction h with
  | nil => simp at hn
  | skip hold hrest ih =>
    rcases List.mem_cons.mp hn with rfl | hn
    · exact hrest.mem_seen_iff.mpr (.inl hold)
    · exact ih hn
  | visit _ hbelow hrest _ ihrest =>
    rcases List.mem_cons.mp hn with rfl | hn
    · exact hrest.mem_seen_iff.mpr (.inl (hbelow.mem_seen_iff.mpr (.inl List.mem_cons_self)))
    · exact ihrest hn

/-- The neighbours of a node that is finished have been seen. -/
theorem mem_seen_of_next (h : Visits next seen ns seen' order) {n m : Nat} (hn : n ∈ order)
    (hm : m ∈ next n) : m ∈ seen' := by
  induction h with
  | nil => simp at hn
  | skip _ _ ih => exact ih hn
  | visit _ hbelow hrest ihbelow ihrest =>
    rcases List.mem_append.mp hn with hn | hn
    · exact hrest.mem_seen_iff.mpr (.inl (ihbelow hn))
    · rcases List.mem_cons.mp hn with rfl | hn
      · exact hrest.mem_seen_iff.mpr (.inl (hbelow.mem_seen_of_mem hm))
      · exact ihrest hn

/-- A node that is finished can be reached from one that the search comes to. -/
theorem exists_reaches (h : Visits next seen ns seen' order) {m : Nat} (hm : m ∈ order) :
    ∃ n ∈ ns, Relation.ReflTransGen (fun a b => b ∈ next a) n m := by
  induction h with
  | nil => simp at hm
  | skip _ _ ih =>
    obtain ⟨n, hn, hreach⟩ := ih hm
    exact ⟨n, List.mem_cons_of_mem _ hn, hreach⟩
  | @visit n _ _ _ _ _ _ _ _ _ ihbelow ihrest =>
    rcases List.mem_append.mp hm with hm | hm
    · obtain ⟨k, hk, hreach⟩ := ihbelow hm
      exact ⟨n, List.mem_cons_self, .head hk hreach⟩
    · rcases List.mem_cons.mp hm with rfl | hm
      · exact ⟨m, List.mem_cons_self, .refl⟩
      · obtain ⟨k, hk, hreach⟩ := ihrest hm
        exact ⟨k, List.mem_cons_of_mem _ hk, hreach⟩

/-- A search that comes to the nodes of two lists comes to those of the first one first. -/
theorem of_append {ms : List Nat} (h : Visits next seen (ms ++ ns) seen' order) :
    ∃ middle front back, Visits next seen ms middle front ∧ Visits next middle ns seen' back ∧
      order = front ++ back := by
  induction ms generalizing seen order with
  | nil => exact ⟨seen, [], order, .nil seen, h, rfl⟩
  | cons m ms ih =>
    cases h with
    | skip hm hrest =>
      obtain ⟨middle, front, back, hfront, hback, rfl⟩ := ih hrest
      exact ⟨middle, front, back, .skip hm hfront, hback, rfl⟩
    | @visit _ _ _ _ _ below _ hm hbelow hrest =>
      obtain ⟨middle, front, back, hfront, hback, rfl⟩ := ih hrest
      exact ⟨middle, below ++ m :: front, back, .visit hm hbelow hfront, hback, by simp⟩

end Visits

namespace Digraph

variable {g : Digraph} {seen ns seen' order : List Nat}

/-! ### Existence -/

/-- The more a search has seen, the less it has left. -/
theorem unvisited_mono {visited visited' : List Nat} (h : visited ⊆ visited') :
    g.unvisited visited' ≤ g.unvisited visited := by
  refine List.countP_mono_left fun n _ hn => ?_
  simp only [Bool.not_eq_eq_eq_not, Bool.not_true, List.contains_eq_mem,
    decide_eq_false_iff_not] at hn ⊢
  exact fun hmem => hn (h hmem)

/-- Neighbours are nodes of the graph. -/
theorem lt_of_mem_successors (hg : g.IsBounded) {n m : Nat} (h : m ∈ g.successors n) :
    m < g.size :=
  (hg _ (mem_successors.mp h)).2

/-- Every search comes to an end. Below a node there is less left to see; and behind it, fewer
nodes to come to. -/
theorem exists_visits (hg : g.IsBounded) (seen : List Nat) (hns : ∀ n ∈ ns, n < g.size) :
    ∃ seen' order, Visits g.successors seen ns seen' order := by
  induction hleft : g.unvisited seen using Nat.strongRecOn generalizing seen ns with
  | _ left ih =>
    have hle : g.unvisited seen ≤ left := Nat.le_of_eq hleft
    clear hleft
    induction ns generalizing seen with
    | nil => exact ⟨seen, [], .nil seen⟩
    | cons n rest ihrest =>
      have hrest : ∀ m ∈ rest, m < g.size := fun m hm => hns m (List.mem_cons_of_mem _ hm)
      by_cases hn : n ∈ seen
      · obtain ⟨seen', order, hvisits⟩ := ihrest seen hrest hle
        exact ⟨seen', order, .skip hn hvisits⟩
      · have hlt : g.unvisited (n :: seen) < left :=
          Nat.lt_of_lt_of_le (unvisited_cons_lt hn (hns n List.mem_cons_self)) hle
        obtain ⟨inner, below, hbelow⟩ := ih _ hlt (n :: seen)
          (fun m hm => lt_of_mem_successors hg hm) rfl
        have hsub : seen ⊆ inner := fun m hm =>
          hbelow.mem_seen_iff.mpr (.inl (List.mem_cons_of_mem _ hm))
        obtain ⟨outer, behind, hbehind⟩ :=
          ihrest inner hrest (Nat.le_trans (unvisited_mono hsub) hle)
        exact ⟨outer, below ++ n :: behind, .visit hn hbelow hbehind⟩

/-! ### Tasks -/

/-- The tasks to visit nodes amount to a search that comes to them. -/
theorem finishOrder_visits (hg : g.IsBounded) (hns : ∀ n ∈ ns, n < g.size)
    (h : Visits g.successors seen ns seen' order) (tasks : List SearchTask) :
    g.finishOrder seen (ns.map .visit ++ tasks) = order ++ g.finishOrder seen' tasks := by
  induction h generalizing tasks with
  | nil => rfl
  | skip hn _ ih =>
    rw [List.map_cons, List.cons_append, finishOrder, dif_pos (.inl hn)]
    exact ih (fun m hm => hns m (List.mem_cons_of_mem _ hm)) tasks
  | @visit n seen rest _ _ _ _ hn _ _ ihbelow ihrest =>
    have hlt : n < g.size := hns n List.mem_cons_self
    have hnew : ¬(n ∈ seen ∨ g.size ≤ n) := by
      rintro (hmem | hle)
      · exact hn hmem
      · exact absurd hlt (Nat.not_lt_of_le hle)
    rw [List.map_cons, List.cons_append, finishOrder, dif_neg hnew, expand, List.append_assoc,
      ihbelow (fun m hm => lt_of_mem_successors hg hm), List.singleton_append, finishOrder,
      ihrest (fun m hm => hns m (List.mem_cons_of_mem _ hm)), List.append_assoc, List.cons_append]

/-- The post-order is what a search comes to that comes to all nodes in ascending order. -/
theorem visits_postOrder (hg : g.IsBounded) :
    ∃ seen, Visits g.successors [] g.nodes seen g.postOrder := by
  have hnodes : ∀ n ∈ g.nodes, n < g.size := fun n hn => List.mem_range.mp hn
  obtain ⟨seen, order, hvisits⟩ := exists_visits hg [] hnodes
  have horder : g.postOrder = order := by
    have htasks := finishOrder_visits hg hnodes hvisits []
    rwa [finishOrder, List.append_nil, List.append_nil] at htasks
  exact ⟨seen, horder ▸ hvisits⟩

/-! ### Seeds -/

/-- Whether `s` is the **seed** of `n`: the smallest node from which `n` can be reached. -/
def IsSeed (g : Digraph) (s n : Nat) : Prop :=
  IsLeast {k | k < g.size ∧ Relation.ReflTransGen g.Edge k n} s

/-- Every node has a seed. -/
theorem exists_isSeed {n : Nat} (hn : n < g.size) : ∃ s, g.IsSeed s n := by
  classical
  have hexists : ∃ k, k < g.size ∧ Relation.ReflTransGen g.Edge k n := ⟨n, hn, .refl⟩
  exact ⟨Nat.find hexists, Nat.find_spec hexists, fun k hk => Nat.find_min' hexists hk⟩

/-- Walks are the same along edges and along neighbours. -/
theorem edge_eq : (fun n m => m ∈ g.successors n) = g.Edge := by
  funext n m
  exact propext mem_successors

/-- A search that starts with nothing seen finishes what it can reach. -/
theorem mem_order_of_reaches (h : Visits g.successors [] ns seen' order) {n m : Nat}
    (hn : n ∈ ns) (hreach : Relation.ReflTransGen g.Edge n m) : m ∈ order := by
  have hseen : ∀ {k}, k ∈ seen' ↔ k ∈ order := by simp [h.mem_seen_iff]
  induction hreach with
  | refl => exact hseen.mp (h.mem_seen_of_mem hn)
  | tail _ hedge ih => exact hseen.mp (h.mem_seen_of_next ih (mem_successors.mpr hedge))

/-- Nodes with a smaller seed come first in the post-order: the search has finished all that can be
reached from that seed before it comes to the next one. -/
theorem sublist_postOrder_of_seed_lt (hg : g.IsBounded) {n m s r : Nat} (hn : g.IsSeed s n)
    (hm : g.IsSeed r m) (hlt : s < r) : [n, m].Sublist g.postOrder := by
  obtain ⟨⟨hs, hreach⟩, -⟩ := hn
  obtain ⟨⟨hr, hreach'⟩, hleast⟩ := hm
  obtain ⟨seen, hvisits⟩ := visits_postOrder hg
  have hsplit : g.nodes =
      List.range (s + 1) ++ (List.range (g.size - (s + 1))).map (s + 1 + ·) := by
    rw [nodes, ← List.range_add]
    congr 1
    omega
  rw [hsplit] at hvisits
  obtain ⟨middle, front, back, hfront, hback, horder⟩ := hvisits.of_append
  have hnfront : n ∈ front :=
    mem_order_of_reaches hfront (List.mem_range.mpr (Nat.lt_succ_self s)) hreach
  have hmfront : m ∉ front := by
    intro hmem
    obtain ⟨k, hk, hwalk⟩ := hfront.exists_reaches hmem
    rw [edge_eq] at hwalk
    have hle : k ≤ s := Nat.le_of_lt_succ (List.mem_range.mp hk)
    have hrk : r ≤ k := hleast ⟨by omega, hwalk⟩
    omega
  have hmsize : m < g.size := by
    rcases Relation.ReflTransGen.cases_tail hreach' with rfl | ⟨k, -, hedge⟩
    · exact hr
    · exact (hg _ hedge).2
  have hmback : m ∈ back := by
    have hmem : m ∈ front ++ back := horder ▸ mem_postOrder.mpr hmsize
    exact (List.mem_append.mp hmem).resolve_left hmfront
  rw [horder]
  exact (List.singleton_sublist.mpr hnfront).append (List.singleton_sublist.mpr hmback)

end Digraph

end ScriptBundle
