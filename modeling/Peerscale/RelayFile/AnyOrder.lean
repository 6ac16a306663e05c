import Peerscale.RelayFile.Disconnect

/-! # Chunks in any order

The bitmap tells which chunks have arrived, but every new chunk is written where
the previous one ended. The `.part` file is therefore the chunks in the order of
their first arrival, whatever their numbers; ACKs are right in any order.
-/

namespace Peerscale.RelayFile

open Program List Outgoing

namespace Assembly

theorem mem_foldl_firstArrivals (order seen : List Nat) (seq : Nat) :
    seq ∈ order.foldl (fun seen seq => if seq ∈ seen then seen else seen ++ [seq]) seen ↔
      seq ∈ seen ∨ seq ∈ order := by
  induction order generalizing seen with
  | nil => simp
  | cons head order ih =>
    rw [foldl_cons, ih, mem_cons]
    split
    · rename_i already
      constructor
      · rintro (mem | mem)
        · exact .inl mem
        · exact .inr (.inr mem)
      rintro (mem | rfl | mem)
      · exact .inl mem
      · exact .inl already
      · exact .inr mem
    · rw [mem_append, mem_singleton, or_assoc]

theorem mem_firstArrivals (order : List Nat) (seq : Nat) :
    seq ∈ firstArrivals order ↔ seq ∈ order := by
  simp [firstArrivals, mem_foldl_firstArrivals]

end Assembly

section Orders

variable {outgoing : Outgoing}

theorem assembled_range (outgoing : Outgoing) (n : Nat) :
    outgoing.assembled (range n) = outgoing.bytes.take (n * chunkSize) :=
  flatMap_piece_range chunkSize outgoing.bytes n

theorem assembled_range_totalChunks (outgoing : Outgoing) :
    outgoing.assembled (range outgoing.totalChunks) = outgoing.bytes := by
  rw [assembled_range]
  exact take_of_length_le (le_pieceCount_mul chunkSize_pos _)

def marker (outgoing : Outgoing) (index : Nat) : Outgoing where
  name := outgoing.name
  bytes := (List.replicate outgoing.bytes.length 0).set index 1
  compression := outgoing.compression
  fits := by simpa using outgoing.fits

theorem totalChunks_marker (outgoing : Outgoing) (index : Nat) :
    (marker outgoing index).totalChunks = outgoing.totalChunks := by
  simp [totalChunks, marker]

theorem head_chunk_marker (within : other < outgoing.totalChunks) :
    ((marker outgoing (seq * chunkSize)).chunk other).head? =
      some (if other = seq then 1 else 0) := by
  have inside := (outgoing.lt_totalChunks_iff other).mp within
  have pos := chunkSize_pos
  rw [chunk, piece, head?_take, if_neg (by omega), head?_drop, marker, getElem?_set]
  by_cases eq : other = seq
  · simp [eq, eq ▸ inside]
  have apart : seq * chunkSize ≠ other * chunkSize := by
    intro same
    exact eq (Nat.eq_of_mul_eq_mul_right pos same).symm
  simp [eq, apart, inside]

theorem head_drop_marker (within : seq < outgoing.totalChunks) :
    ((marker outgoing (seq * chunkSize)).bytes.drop (seq * chunkSize)).head? = some 1 := by
  have inside := (outgoing.lt_totalChunks_iff seq).mp within
  rw [head?_drop, marker, getElem?_set_self (by simpa using inside)]

theorem assembled_append (x y : List Nat) :
    outgoing.assembled (x ++ y) = outgoing.assembled x ++ outgoing.assembled y :=
  flatMap_append

theorem take_eq_range_of_assembled (bounded : ∀ seq ∈ arrived, seq < outgoing.totalChunks)
    (assembles : ∀ other : Outgoing, other.totalChunks = outgoing.totalChunks →
      other.assembled arrived = other.bytes) (within : n ≤ outgoing.totalChunks) :
    arrived.take n = range n := by
  induction n with
  | zero => rfl
  | succ n ih =>
    have pre := ih (by omega)
    have inside := (outgoing.lt_totalChunks_iff n).mp (by omega)
    have whole := assembles (marker outgoing (n * chunkSize)) (totalChunks_marker _ _)
    rw [← take_append_drop n arrived, assembled_append, pre, assembled_range] at whole
    have rest : (marker outgoing (n * chunkSize)).assembled (arrived.drop n) =
        (marker outgoing (n * chunkSize)).bytes.drop (n * chunkSize) := by
      rw [← append_right_inj, whole, take_append_drop]
    have marked := congrArg head? rest
    rw [head_drop_marker (by omega)] at marked
    cases next : arrived.drop n with
    | nil =>
      rw [next] at marked
      cases marked
    | cons seq =>
      have mem : seq ∈ arrived := mem_of_mem_drop (next ▸ mem_cons_self)
      rw [next, assembled, flatMap_cons, head?_append,
        head_chunk_marker (bounded seq mem)] at marked
      have same : seq = n := by
        by_contra ne
        simp [ne] at marked
      rw [take_add, pre, next, range_succ, same]
      rfl

theorem assembles_all_iff (bounded : ∀ seq ∈ arrived, seq < outgoing.totalChunks) :
    (∀ other : Outgoing, other.totalChunks = outgoing.totalChunks →
        other.assembled arrived = other.bytes) ↔
      arrived = range outgoing.totalChunks := by
  constructor
  · intro assembles
    have inPlace := take_eq_range_of_assembled bounded assembles (Nat.le_refl _)
    have whole := assembles outgoing rfl
    rw [← take_append_drop outgoing.totalChunks arrived, assembled_append, inPlace,
      assembled_range_totalChunks, append_right_eq_self] at whole
    -- Chunks of the file are never empty, so nothing can follow the last one.
    have nothingMore : arrived.drop outgoing.totalChunks = [] := by
      cases next : arrived.drop outgoing.totalChunks with
      | nil => rfl
      | cons seq =>
        have mem : seq ∈ arrived := mem_of_mem_drop (next ▸ mem_cons_self)
        rw [next, assembled, flatMap_cons, append_eq_nil_iff] at whole
        exact absurd whole.1 (outgoing.chunk_ne_nil (bounded seq mem))
    rw [← take_append_drop outgoing.totalChunks arrived, inPlace, nothingMore, append_nil]
  rintro rfl other sameTotal
  rw [← sameTotal]
  exact assembled_range_totalChunks other

end Orders

section Receiver

variable {library : Library} {outgoing : Outgoing} {config : Config} {offset : Int64}
  {files : Files} {callback : Bool} {order : List Nat}

def arrivedWorld (library : Library) (config : Config) (outgoing : Outgoing) (offset : Int64)
    (files : Files) (callback : Bool) (order : List Nat) : World :=
  ((session library config (outgoing.initMessage offset)
    (order.map fun seq => .frame (outgoing.dataFrame library seq))).run handle
      ⟨files, Local.fresh callback⟩).2

/-- The `.part` file is what arrived, in order of first arrival, and the ACKs are
those of the assembly model. -/
theorem arrivedWorld_spec
    (fresh : offset.toInt ≤ 0 ∨ files.link (tmpPath config outgoing.name) = none)
    (lossless : outgoing.Lossless library) (labelled : ∀ seq ∈ order, seq < outgoing.totalChunks) :
    (arrivedWorld library config outgoing offset files callback order).files.read
        (tmpPath config outgoing.name) =
      some (outgoing.assembled (Assembly.firstArrivals order)) ∧
    (arrivedWorld library config outgoing offset files callback order).self.sent =
      .accept (0 : Nat) ::
        acks ((Assembly.opening 0 (Nat.zero_le outgoing.totalChunks)).receiveAll order).2 := by
  rcases @accepted_of_unlinked outgoing config offset files callback fresh with
    ⟨ses, opened, handled, accepted⟩
  have labelledSome : ∀ seq, some seq ∈ order.map some → seq < outgoing.totalChunks := by
    intro seq mem
    exact labelled seq (by simpa using mem)
  rcases accepted.represents.receiveAll accepted.registered lossless callback 0 labelledSome with
    ⟨next, post, ran, represents, sent, -⟩
  have numbers : (order.map some).reduceOption = order := by simp [reduceOption]
  have events : (order.map fun seq => Event.frame (outgoing.dataFrame library seq)) =
      (order.map some).map (deliveryEvent library outgoing) := by
    rw [map_map]
    rfl
  have w : arrivedWorld library config outgoing offset files callback order = post := by
    rw [arrivedWorld, run_session handled, events]
    exact congrArg Prod.snd ran
  rw [numbers] at represents sent
  rw [w]
  constructor
  · have origin : (Assembly.opening 0 (Nat.zero_le outgoing.totalChunks)).start * chunkSize =
        ([] : Bytes).length := Nat.zero_mul _
    rw [represents.read, heldBytes, Assembly.receiveAll_start,
      Assembly.arrived_receiveAll_opening, origin, splice_length, nil_append]
  · rw [sent, accepted.sent]
    rfl

/-- The `.part` file is the file exactly when the chunks, put one after another in
the order of their first arrival, make it up; for every file of that many chunks,
exactly when they first arrive in ascending order. An ACK names received chunks
only. -/
theorem arrivals_make_file_iff
    (fresh : offset.toInt ≤ 0 ∨ files.link (tmpPath config outgoing.name) = none)
    (lossless : outgoing.Lossless library)
    (labelled : ∀ seq ∈ order, seq < outgoing.totalChunks) :
    ((arrivedWorld library config outgoing offset files callback order).files.read
        (tmpPath config outgoing.name) = some outgoing.bytes ↔
      (Assembly.firstArrivals order).flatMap outgoing.chunk = outgoing.bytes) ∧
    ((∀ other : Outgoing, other.totalChunks = outgoing.totalChunks →
        (Assembly.firstArrivals order).flatMap other.chunk = other.bytes) ↔
      Assembly.firstArrivals order = List.range outgoing.totalChunks) ∧
    ∀ before after, order = before ++ after → ∀ cs, Reply.ack cs ∈
        (arrivedWorld library config outgoing offset files callback before).self.sent →
      ∀ seq : Nat, seq ≤ cs → seq ∈ before := by
  refine ⟨?_, ?_, ?_⟩
  · rw [(arrivedWorld_spec fresh lossless labelled).1, Option.some.injEq]
    rfl
  · apply assembles_all_iff
    intro seq member
    exact labelled seq ((Assembly.mem_firstArrivals order seq).mp member)
  intro before after split cs acked seq upTo
  have labelledBefore : ∀ seq ∈ before, seq < outgoing.totalChunks :=
    fun seq member => labelled seq (by rw [split]; exact List.mem_append_left _ member)
  rw [(arrivedWorld_spec fresh lossless labelledBefore).2, List.mem_cons] at acked
  rcases List.mem_map.mp (acked.resolve_left (by simp)) with ⟨number, member, equal⟩
  rw [Reply.ack.injEq] at equal
  have held := Assembly.has_of_le_receiveAll member (show seq ≤ number by omega)
  rw [Assembly.has_receiveAll, has_opening] at held
  simpa using held

theorem arrivals_make_greeting :
    (arrivedWorld (.ofTransfer (greeting.initMessage 0)) greetingConfig greeting 0 .empty
        false [0, 0]).files.read (tmpPath greetingConfig greeting.name) =
      some greeting.bytes := by
  have labelled : ∀ seq ∈ [0, 0], seq < greeting.totalChunks := by decide
  exact (arrivals_make_file_iff (.inl (by decide)) (fun zstd => by cases zstd)
    labelled).1.mpr (by decide)

theorem totalChunks_twoChunks : twoChunks.totalChunks = 2 := by
  rw [totalChunks, twoChunks, length_append, length_replicate]
  decide

theorem chunk_zero_twoChunks : twoChunks.chunk 0 = replicate chunkSize 0 := by
  rw [chunk, piece, Nat.zero_mul, drop_zero]
  exact take_left' length_replicate

theorem chunk_one_twoChunks : twoChunks.chunk 1 = [1] := by
  rw [chunk, piece, Nat.one_mul, twoChunks, drop_left' length_replicate]
  exact take_of_length_le (by decide)

theorem arrivals_swap_twoChunks :
    (∀ seq ∈ [1, 0], seq < twoChunks.totalChunks) ∧
    (∀ seq < twoChunks.totalChunks, seq ∈ [1, 0]) ∧
    (arrivedWorld (.ofTransfer (twoChunks.initMessage 0)) greetingConfig twoChunks 0 .empty
        false [1, 0]).files.read (tmpPath greetingConfig twoChunks.name) =
      some (1 :: List.replicate chunkSize 0) ∧
    1 :: List.replicate chunkSize 0 ≠ twoChunks.bytes := by
  have labelled : ∀ seq ∈ [1, 0], seq < twoChunks.totalChunks := by
    rw [totalChunks_twoChunks]
    decide
  refine ⟨labelled, ?_, ?_, ?_⟩
  · rw [totalChunks_twoChunks]
    decide
  · have arrived : Assembly.firstArrivals [1, 0] = [1, 0] := by decide
    rw [(arrivedWorld_spec (.inl (by decide)) (fun zstd => by cases zstd) labelled).1,
      arrived, Outgoing.assembled, List.flatMap_cons, List.flatMap_cons, List.flatMap_nil,
      chunk_one_twoChunks, chunk_zero_twoChunks, List.append_nil, List.singleton_append]
  intro equal
  have heads := congrArg List.head? equal
  rw [twoChunks, List.head?_cons, List.head?_append, List.head?_replicate] at heads
  exact absurd heads (by decide)

end Receiver

end Peerscale.RelayFile
