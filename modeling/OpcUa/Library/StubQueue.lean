import Mathlib.Data.List.Nodup
import Mathlib.Data.List.Perm.Subperm

/-!
A queue as a linked list of nodes between a head and a tail, with a stub that stands in for the
last node when the queue runs empty. The operations are the ones of a queue with many producers
and one consumer, each taken as one step: what is taken out comes in the order it was put in.
-/

namespace StubQueue

open List

variable {nodes : List Nat}

structure Queue (Value : Type) where
  next : Nat → Option Nat
  value : Nat → Option Value
  head : Nat
  tail : Nat
  unused : Nat

def stub : Nat := 0

variable {Value : Type}

namespace Queue

def empty : Queue Value where
  next := fun _ => none
  value := fun _ => none
  head := stub
  tail := stub
  unused := 1

section

variable (queue : Queue Value)

def link (node : Nat) : Queue Value :=
  { queue with
    next := fun address =>
      if address = queue.head then some node
      else if address = node then none
      else queue.next address
    head := node }

def push (value : Value) : Queue Value :=
  let node := queue.unused
  { queue with
    value := fun address => if address = node then some value else queue.value address
    unused := node + 1 }.link node

/-- The node at the tail is taken out if it is not the last one. The last one is taken out when
the stub is put behind it. -/
def takeTail (tail : Nat) : Option Nat × Queue Value :=
  match queue.next tail with
  | some node => (some tail, { queue with tail := node })
  | none =>
    if tail ≠ queue.head then (none, queue)
    else
      let queue := queue.link stub
      match queue.next tail with
      | some node => (some tail, { queue with tail := node })
      | none => (none, queue)

def take : Option Nat × Queue Value :=
  if queue.tail = stub then
    match queue.next stub with
    | none => (none, queue)
    | some node => { queue with tail := node }.takeTail node
  else queue.takeTail queue.tail

def pop : Option Value × Queue Value :=
  match queue.take with
  | (none, queue) => (none, queue)
  | (some node, queue) => (queue.value node, queue)

end

end Queue

def Linked (next : Nat → Option Nat) : List Nat → Prop
  | [] => True
  | [last] => next last = none
  | first :: second :: rest => next first = some second ∧ Linked next (second :: rest)

structure Chain (queue : Queue Value) (nodes : List Nat) : Prop where
  tail : nodes.head? = some queue.tail
  head : nodes.getLast? = some queue.head
  linked : Linked queue.next nodes
  nodup : nodes.Nodup
  used : ∀ node ∈ nodes, node < queue.unused
  positive : 0 < queue.unused

def pending (nodes : List Nat) : List Nat := nodes.filter (· ≠ stub)

def Holds (queue : Queue Value) (values : List Value) : Prop :=
  ∃ nodes, Chain queue nodes ∧ (pending nodes).map queue.value = values.map some

theorem Linked.append {next : Nat → Option Nat} {last node : Nat} (linked : Linked next nodes)
    (ends : nodes.getLast? = some last) (nodup : nodes.Nodup) (fresh : node ∉ nodes) :
    Linked (fun address => if address = last then some node
      else if address = node then none else next address) (nodes ++ [node]) := by
  induction nodes with
  | nil => cases ends
  | cons first rest ih =>
    obtain ⟨alone, others⟩ := nodup_cons.mp nodup
    cases rest with
    | nil =>
      have same : first = last := by simpa using ends
      subst same
      have other : node ≠ first := fun same => fresh (same ▸ mem_cons_self)
      refine ⟨if_pos rfl, ?_⟩
      rw [Linked, if_neg other, if_pos rfl]
    | cons second rest =>
      have later : (second :: rest).getLast? = some last := by
        rwa [getLast?_cons_cons] at ends
      have before : first ≠ last := by
        rintro rfl
        exact alone (mem_of_getLast? later)
      have other : first ≠ node := by
        rintro rfl
        exact fresh mem_cons_self
      refine ⟨?_, ih linked.2 later others fun inside => fresh (mem_cons_of_mem _ inside)⟩
      dsimp only
      rw [if_neg before, if_neg other]
      exact linked.1

variable {queue : Queue Value}

theorem Chain.link (chain : Chain queue nodes) {node : Nat} (fresh : node ∉ nodes)
    (used : node < queue.unused) : Chain (queue.link node) (nodes ++ [node]) := by
  refine ⟨?_, getLast?_concat, chain.linked.append chain.head chain.nodup fresh, ?_, ?_,
    chain.positive⟩
  · have first := chain.tail
    cases nodes with
    | nil => cases first
    | cons tail rest => exact first
  · rw [nodup_append]
    refine ⟨chain.nodup, nodup_singleton node, ?_⟩
    intro first member second same equal
    rw [mem_singleton.mp same] at equal
    exact fresh (equal ▸ member)
  · intro other member
    rcases mem_append.mp member with before | last
    · exact chain.used other before
    · rw [mem_singleton.mp last]
      exact used

theorem Chain.rest {first second : Nat} {rest : List Nat}
    (chain : Chain queue (first :: second :: rest)) :
    Chain { queue with tail := second } (second :: rest) := by
  refine ⟨rfl, ?_, chain.linked.2, (nodup_cons.mp chain.nodup).2,
    fun node member => chain.used node (mem_cons_of_mem _ member), chain.positive⟩
  have ends := chain.head
  rwa [getLast?_cons_cons] at ends

theorem Holds.empty : Holds (Queue.empty : Queue Value) [] := by
  refine ⟨[stub], ⟨rfl, rfl, rfl, nodup_singleton stub, ?_, Nat.one_pos⟩, rfl⟩
  intro node member
  rw [mem_singleton.mp member]
  exact Nat.one_pos

variable {values : List Value}

theorem Holds.push (holds : Holds queue values) (value : Value) :
    Holds (queue.push value) (values ++ [value]) := by
  obtain ⟨nodes, chain, contents⟩ := holds
  have fresh : queue.unused ∉ nodes := fun member => Nat.lt_irrefl _ (chain.used _ member)
  have wider : Chain { queue with
      value := fun address => if address = queue.unused then some value else queue.value address
      unused := queue.unused + 1 } nodes :=
    ⟨chain.tail, chain.head, chain.linked, chain.nodup,
      fun node member => Nat.lt_succ_of_lt (chain.used node member), Nat.succ_pos _⟩
  refine ⟨nodes ++ [queue.unused], wider.link fresh (Nat.lt_succ_self _), ?_⟩
  have real : queue.unused ≠ stub := Nat.ne_of_gt chain.positive
  rw [pending, filter_append, map_append, map_append, ← contents]
  congr 1
  · apply map_congr_left
    intro node member
    apply if_neg
    intro same
    exact fresh (same ▸ (mem_filter.mp member).1)
  · rw [filter_cons_of_pos (by simpa using real)]
    exact congrArg (· :: []) (if_pos rfl)

theorem Chain.takeTail {first : Nat} {rest : List Nat} (chain : Chain queue (first :: rest))
    (real : first ≠ stub) :
    ∃ left nodes, queue.takeTail first = (some first, left) ∧ Chain left nodes ∧
      pending nodes = pending rest ∧ left.value = queue.value := by
  cases rest with
  | cons second rest =>
    refine ⟨_, second :: rest, ?_, chain.rest, rfl, rfl⟩
    rw [Queue.takeTail, chain.linked.1]
  | nil =>
    have last : queue.head = first := by
      have ends := chain.head
      injection ends with same
      exact same.symm
    have fresh : stub ∉ [first] := fun member => real (mem_singleton.mp member).symm
    have longer := chain.link fresh chain.positive
    refine ⟨{ queue.link stub with tail := stub }, [stub], ?_, longer.rest, rfl, rfl⟩
    have links := longer.linked.1
    rw [Queue.takeTail, show queue.next first = none from chain.linked]
    dsimp only
    rw [if_neg (not_not.mpr last.symm), links]

theorem Chain.take (chain : Chain queue nodes) :
    match pending nodes with
    | [] => queue.take = (none, queue)
    | first :: others => ∃ left nodes, queue.take = (some first, left) ∧ Chain left nodes ∧
        pending nodes = others ∧ left.value = queue.value := by
  have start := chain.tail
  cases nodes with
  | nil => cases start
  | cons first rest =>
    injection start with tail
    by_cases real : first = stub
    · subst real
      have skipped : pending (stub :: rest) = pending rest := by
        rw [pending, filter_cons_of_neg (by simp), pending]
      rw [skipped, Queue.take, if_pos tail.symm]
      cases rest with
      | nil =>
        have none : queue.next stub = none := chain.linked
        rw [none]
        rfl
      | cons second rest =>
        have other : second ≠ stub := by
          intro same
          exact (nodup_cons.mp chain.nodup).1 (same ▸ mem_cons_self)
        rw [chain.linked.1, pending, filter_cons_of_pos (by simpa using other)]
        exact chain.rest.takeTail other
    · rw [pending, filter_cons_of_pos (by simpa using real), Queue.take,
        if_neg (fun same => real (tail.trans same)), ← tail]
      exact chain.takeTail real

theorem Holds.pop (holds : Holds queue values) :
    match values with
    | [] => queue.pop = (none, queue)
    | first :: others => ∃ left, queue.pop = (some first, left) ∧ Holds left others := by
  obtain ⟨nodes, chain, contents⟩ := holds
  have taken := chain.take
  cases values with
  | nil =>
    rw [map_nil, map_eq_nil_iff] at contents
    rw [contents] at taken
    rw [Queue.pop, taken]
  | cons first others =>
    obtain ⟨node, rest, split, value, later⟩ := map_eq_cons_iff.mp contents
    rw [split] at taken
    obtain ⟨left, nodes, result, remaining, same, values⟩ := taken
    refine ⟨left, ?_, nodes, remaining, ?_⟩
    · rw [Queue.pop, result]
      dsimp only
      rw [values, value]
    · rw [same, values]
      exact later

theorem Holds.length_lt (holds : Holds queue values) : values.length < queue.unused := by
  obtain ⟨nodes, chain, contents⟩ := holds
  have count : values.length = (pending nodes).length := by
    rw [← length_map Option.some, ← contents, length_map]
  have nodup : (stub :: pending nodes).Nodup := by
    refine nodup_cons.mpr ⟨?_, chain.nodup.filter _⟩
    intro member
    simp [pending] at member
  have subset : stub :: pending nodes ⊆ List.range queue.unused := by
    intro node member
    rw [mem_range]
    rcases mem_cons.mp member with rfl | inside
    · exact chain.positive
    · exact chain.used node (mem_filter.mp inside).1
  have bound := (nodup.subperm subset).length_le
  rw [length_cons, length_range, ← count] at bound
  exact bound

end StubQueue
