import Peerscale.RelayFile.Wire
import Mathlib.Data.List.Basic

/-! # Assembling a file from chunks

What a receiver is for, without files, frames or bit masks: it holds the chunks
below a starting point, adds those that arrive, and acknowledges unbroken runs in
batches. The receiving program is shown to follow this model.
-/

namespace Peerscale.RelayFile

open List

/-- The chunks held of a file of `total` chunks: those below `start`, and those
that arrived since in the order of their first arrival. -/
structure Assembly (total : Nat) where
  start : Nat
  arrived : List Nat
  lastAck : Nat
  start_le : start ≤ total
  lastAck_le : lastAck ≤ total

namespace Assembly

variable {total : Nat}

def opening (start : Nat) (start_le : start ≤ total) : Assembly total where
  start := start
  arrived := []
  lastAck := start
  start_le := start_le
  lastAck_le := start_le

def has (assembly : Assembly total) (seq : Nat) : Bool :=
  seq < assembly.start || seq ∈ assembly.arrived

def continuous (assembly : Assembly total) : Nat :=
  (List.range total).findIdx fun seq => !assembly.has seq

variable {assembly : Assembly total} {seq : Nat}

theorem continuous_le (assembly : Assembly total) : assembly.continuous ≤ total := by
  have bound : assembly.continuous ≤ (range total).length := findIdx_le_length
  simpa using bound

theorem has_of_lt_continuous (below : seq < assembly.continuous) : assembly.has seq := by
  have found := not_of_lt_findIdx below
  simpa using found

theorem not_has_continuous (short : assembly.continuous < total) :
    assembly.has assembly.continuous = false := by
  have found : (range total)[assembly.continuous]? = some assembly.continuous := by simp [short]
  have missing := findIdx_of_getElem?_eq_some found
  simpa using missing

theorem continuous_eq (within : run ≤ total) (held : ∀ seq, seq < run → assembly.has seq)
    (missing : run < total → assembly.has run = false) : assembly.continuous = run := by
  rcases Nat.lt_trichotomy assembly.continuous run with less | eq | greater
  · have absent := not_has_continuous (Nat.lt_of_lt_of_le less within)
    rw [held _ less] at absent
    cases absent
  · exact eq
  have absent := missing (Nat.lt_of_lt_of_le greater assembly.continuous_le)
  rw [has_of_lt_continuous greater] at absent
  cases absent

def insert (assembly : Assembly total) (seq : Nat) : Assembly total :=
  if assembly.has seq then assembly
  else { assembly with arrived := assembly.arrived ++ [seq] }

def ackDue (assembly : Assembly total) : Prop :=
  (ackBatch ≤ assembly.continuous - assembly.lastAck ∨ total ≤ assembly.continuous) ∧
    assembly.lastAck < assembly.continuous
  deriving Decidable

def acknowledge (assembly : Assembly total) : Assembly total × List Nat :=
  if assembly.ackDue then
    ({ assembly with
        lastAck := assembly.continuous
        lastAck_le := assembly.continuous_le }, [assembly.continuous - 1])
  else (assembly, [])

def receive (assembly : Assembly total) (seq : Nat) : Assembly total × List Nat :=
  (assembly.insert seq).acknowledge

section

variable (assembly : Assembly total)

@[simp] theorem insert_start (seq : Nat) : (assembly.insert seq).start = assembly.start := by
  unfold insert
  split <;> rfl

@[simp] theorem insert_lastAck (seq : Nat) : (assembly.insert seq).lastAck = assembly.lastAck := by
  unfold insert
  split <;> rfl

theorem has_insert (seq other : Nat) :
    (assembly.insert seq).has other = (decide (other = seq) || assembly.has other) := by
  unfold insert
  split
  · rename_i held
    by_cases eq : other = seq
    · simp [eq, held]
    · simp [eq]
  · by_cases eq : other = seq <;> simp [has, eq]

@[simp] theorem acknowledge_start : assembly.acknowledge.1.start = assembly.start := by
  unfold acknowledge
  split <;> rfl

@[simp] theorem acknowledge_arrived : assembly.acknowledge.1.arrived = assembly.arrived := by
  unfold acknowledge
  split <;> rfl

end

theorem acknowledge_of_due (due : assembly.ackDue) :
    assembly.acknowledge.1.lastAck = assembly.continuous ∧
      assembly.acknowledge.2 = [assembly.continuous - 1] := by
  rw [acknowledge, if_pos due]
  exact ⟨rfl, rfl⟩

theorem acknowledge_of_not_due (notDue : ¬assembly.ackDue) :
    assembly.acknowledge = (assembly, []) :=
  if_neg notDue

@[simp] theorem acknowledge_has (assembly : Assembly total) (seq : Nat) :
    assembly.acknowledge.1.has seq = assembly.has seq := by
  simp [has]

theorem has_of_le_acknowledge (sent : cs ∈ assembly.acknowledge.2) (upTo : seq ≤ cs) :
    assembly.has seq := by
  unfold acknowledge at sent
  split at sent
  · rename_i due
    rw [mem_singleton] at sent
    have ahead := due.2
    exact has_of_lt_continuous (by omega)
  · cases sent

def receiveAll (assembly : Assembly total) : List Nat → Assembly total × List Nat
  | [] => (assembly, [])
  | seq :: order =>
    (((assembly.receive seq).1.receiveAll order).1,
      (assembly.receive seq).2 ++ ((assembly.receive seq).1.receiveAll order).2)

@[simp] theorem receiveAll_start (assembly : Assembly total) (order : List Nat) :
    (assembly.receiveAll order).1.start = assembly.start := by
  induction order generalizing assembly with
  | nil => rfl
  | cons seq order ih => simp [receiveAll, ih, receive]

theorem has_receiveAll (assembly : Assembly total) (order : List Nat) (seq : Nat) :
    (assembly.receiveAll order).1.has seq = (decide (seq ∈ order) || assembly.has seq) := by
  induction order generalizing assembly with
  | nil => simp [receiveAll]
  | cons head order ih =>
    simp only [receiveAll, ih, receive, acknowledge_has, has_insert, mem_cons]
    by_cases isHead : seq = head <;> by_cases inRest : seq ∈ order <;> simp [isHead, inRest]

theorem has_of_le_receiveAll (sent : cs ∈ (assembly.receiveAll order).2) (upTo : seq ≤ cs) :
    (assembly.receiveAll order).1.has seq := by
  induction order generalizing assembly with
  | nil => cases sent
  | cons head order ih =>
    rw [receiveAll] at sent ⊢
    rcases mem_append.mp sent with now | later
    · have held := has_of_le_acknowledge now upTo
      rw [has_receiveAll]
      simp [receive, held]
    · exact ih later

def InOrder (assembly : Assembly total) (n : Nat) : Prop :=
  assembly.arrived = List.range' assembly.start n

variable {n : Nat}

theorem InOrder.has_iff (inOrder : assembly.InOrder n) (seq : Nat) :
    assembly.has seq ↔ seq < assembly.start + n := by
  rw [has, inOrder, Bool.or_eq_true, decide_eq_true_iff, decide_eq_true_iff, mem_range'_1]
  omega

theorem InOrder.continuous (inOrder : assembly.InOrder n)
    (within : assembly.start + n ≤ total) : assembly.continuous = assembly.start + n := by
  apply continuous_eq within
  · intro seq below
    exact (inOrder.has_iff seq).mpr below
  intro _
  rw [Bool.eq_false_iff]
  intro held
  have below := (inOrder.has_iff _).mp held
  omega

theorem InOrder.receive (inOrder : assembly.InOrder n) :
    (assembly.receive (assembly.start + n)).1.InOrder (n + 1) := by
  have missing : assembly.has (assembly.start + n) = false := by
    rw [Bool.eq_false_iff]
    intro held
    have below := (inOrder.has_iff _).mp held
    omega
  unfold InOrder at inOrder ⊢
  simp only [Assembly.receive, acknowledge_arrived, acknowledge_start, insert_start]
  rw [insert, missing, range'_1_concat]
  simp [inOrder]

theorem inOrder_opening {start : Nat} (start_le : start ≤ total) :
    (opening start start_le).InOrder 0 := rfl

theorem InOrder.receiveAll (inOrder : assembly.InOrder held) (n : Nat) :
    (assembly.receiveAll (range' (assembly.start + held) n)).1.InOrder (held + n) := by
  induction n generalizing assembly held with
  | zero => exact inOrder
  | succ n ih =>
    rw [range'_succ, Assembly.receiveAll]
    have next := ih inOrder.receive
    have sameStart : (assembly.receive (assembly.start + held)).1.start =
        assembly.start := by simp [Assembly.receive]
    rw [sameStart] at next
    rw [show held + (n + 1) = held + 1 + n by omega,
      show assembly.start + held + 1 = assembly.start + (held + 1) by omega]
    exact next

def firstArrivals (order : List Nat) : List Nat :=
  order.foldl (fun seen seq => if seq ∈ seen then seen else seen ++ [seq]) []

theorem arrived_receiveAll (assembly : Assembly total) (order : List Nat)
    (fromZero : assembly.start = 0) :
    (assembly.receiveAll order).1.arrived =
      order.foldl (fun seen seq => if seq ∈ seen then seen else seen ++ [seq])
        assembly.arrived := by
  induction order generalizing assembly with
  | nil => rfl
  | cons seq order ih =>
    rw [receiveAll, ih _ (by simpa [receive] using fromZero), foldl_cons]
    congr 1
    simp only [receive, acknowledge_arrived, insert, has, fromZero]
    by_cases held : seq ∈ assembly.arrived <;> simp [held]

theorem arrived_receiveAll_opening (order : List Nat) :
    ((opening 0 (Nat.zero_le total)).receiveAll order).1.arrived = firstArrivals order :=
  arrived_receiveAll _ order rfl

end Assembly

end Peerscale.RelayFile
