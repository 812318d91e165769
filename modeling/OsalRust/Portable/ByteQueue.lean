import OsalRust.Api.Basic

/-!
# The portable ring buffer

`ByteQueue` of `osal-portable` stores fixed-size byte messages in one flat buffer and is the
data structure under all three queue backends. This module embeds it with its debug
assertions, slice bounds and `usize` arithmetic as possible faults, states the representation
invariant, and gives each operation one specification on well-formed queues.
-/

namespace OsalRust

abbrev Message := List UInt8

structure ByteQueue where
  storage : List UInt8
  capacity : Nat
  messageSize : Nat
  head : Nat
  tail : Nat
  len : Nat
  closed : Bool
  deriving DecidableEq, Repr

namespace ByteQueue

/-- `ByteQueue::new`. The allocator's answer to `try_reserve_exact` is a parameter. -/
def new (w : UsizeWidth) (tryReserveExact : Nat → Bool) (capacity messageSize : Nat) :
    Result ByteQueue :=
  if capacity = 0 ∨ messageSize = 0 then .error .invalidParameter
  else
    match w.checkedMul capacity messageSize with
    | none => .error .overflow
    | some storageSize =>
      if tryReserveExact storageSize then
        .ok { storage := List.replicate storageSize 0, capacity, messageSize,
              head := 0, tail := 0, len := 0, closed := false }
      else .error .outOfMemory

def isEmpty (q : ByteQueue) : Bool := q.len == 0

def isFull (q : ByteQueue) : Bool := q.len == q.capacity

def isClosed (q : ByteQueue) : Bool := q.closed

def availableSlots (q : ByteQueue) : Nat := q.capacity - q.len

def close (q : ByteQueue) : ByteQueue := { q with closed := true }

/-- The debug assertions that open `try_send` and `try_recv`. -/
def debugAsserts (w : UsizeWidth) (q : ByteQueue) : Checked Unit := do
  Checked.assert (q.len ≤ q.capacity)
  Checked.assert (q.head < q.capacity ∨ q.capacity = 0)
  Checked.assert (q.tail < q.capacity ∨ q.capacity = 0)
  let size ← w.mul q.capacity q.messageSize
  Checked.assert (q.storage.length = size)

def trySend (w : UsizeWidth) (q : ByteQueue) (message : Message) :
    Checked (Result Unit × ByteQueue) := do
  q.debugAsserts w
  if message.length ≠ q.messageSize then
    return (.error .invalidMessageSize, q)
  if q.closed then
    return (.error .queueClosed, q)
  if q.isFull then
    return (.error .queueFull, q)
  let offset ← w.mul q.tail q.messageSize
  let stop ← w.add offset q.messageSize
  let storage ← Checked.copyFromSlice q.storage offset stop message
  let next ← w.add q.tail 1
  let tail ← Checked.rem next q.capacity
  let len ← w.add q.len 1
  Checked.assert (len ≤ q.capacity)
  return (.ok (), { q with storage, tail, len })

/-- `try_recv`: the result, the queue and the caller's buffer after the call. -/
def tryRecv (w : UsizeWidth) (q : ByteQueue) (out : Message) :
    Checked (Result Nat × ByteQueue × Message) := do
  q.debugAsserts w
  if out.length ≠ q.messageSize then
    return (.error .invalidMessageSize, q, out)
  if q.len = 0 then
    return (.error (if q.closed then .queueClosed else .queueEmpty), q, out)
  let offset ← w.mul q.head q.messageSize
  let stop ← w.add offset q.messageSize
  let source ← Checked.slice q.storage offset stop
  let out ← Checked.copyFromSlice out 0 q.messageSize source
  let next ← w.add q.head 1
  let head ← Checked.rem next q.capacity
  let len ← Checked.sub q.len 1
  Checked.assert (len ≤ q.capacity)
  return (.ok q.messageSize, { q with head, len }, out)

def slot (q : ByteQueue) (j : Nat) : Message := (q.storage.drop (j * q.messageSize)).take q.messageSize

/-- The buffered messages, oldest first: the `len` slots read from `head` modulo the capacity. -/
def messages (q : ByteQueue) : List Message :=
  (List.range q.len).map fun i => q.slot ((q.head + i) % q.capacity)

structure Wf (w : UsizeWidth) (q : ByteQueue) : Prop where
  capacity_pos : 0 < q.capacity
  size_pos : 0 < q.messageSize
  storage_length : q.storage.length = q.capacity * q.messageSize
  storage_fits : q.capacity * q.messageSize < 2 ^ w.bits
  head_lt : q.head < q.capacity
  len_le : q.len ≤ q.capacity
  tail_eq : q.tail = (q.head + q.len) % q.capacity

@[simp] theorem messages_length (q : ByteQueue) : q.messages.length = q.len := by
  simp [messages]

theorem messages_eq_nil {q : ByteQueue} (h : q.len = 0) : q.messages = [] := by
  simp [messages, h]

def pushed (q : ByteQueue) (message : Message) : ByteQueue :=
  { q with
    storage := q.storage.take (q.tail * q.messageSize) ++ message ++
      q.storage.drop (q.tail * q.messageSize + q.messageSize)
    tail := (q.tail + 1) % q.capacity
    len := q.len + 1 }

def popped (q : ByteQueue) : ByteQueue :=
  { q with head := (q.head + 1) % q.capacity, len := q.len - 1 }

/-- `new` accepts exactly the nonzero parameters whose product fits, when memory is there. -/
theorem new_eq_ok_iff {w : UsizeWidth} {reserve : Nat → Bool} {capacity messageSize : Nat}
    {q : ByteQueue} :
    new w reserve capacity messageSize = .ok q ↔
      0 < capacity ∧ 0 < messageSize ∧ capacity * messageSize < 2 ^ w.bits ∧
        reserve (capacity * messageSize) = true ∧
        q = ⟨List.replicate (capacity * messageSize) 0, capacity, messageSize, 0, 0, 0, false⟩ := by
  unfold new UsizeWidth.checkedMul
  by_cases hz : capacity = 0 ∨ messageSize = 0
  · simp only [hz, if_true, reduceCtorEq, false_iff]
    omega
  · by_cases hm : capacity * messageSize < 2 ^ w.bits
    · by_cases hr : reserve (capacity * messageSize) = true
      · simp only [hz, hm, hr, if_true, if_false, Except.ok.injEq, true_and]
        constructor
        · intro h
          exact ⟨by omega, by omega, h.symm⟩
        · intro h
          exact h.2.2.symm
      · simp [hz, hm, hr]
    · simp [hz, hm]

theorem new_wf {w : UsizeWidth} {reserve : Nat → Bool} {capacity messageSize : Nat}
    {q : ByteQueue} (h : new w reserve capacity messageSize = .ok q) : q.Wf w := by
  obtain ⟨hc, hm, hfit, -, rfl⟩ := new_eq_ok_iff.mp h
  exact ⟨hc, hm, List.length_replicate, hfit, hc, Nat.zero_le _, by simp⟩

theorem debugAsserts_ok {w : UsizeWidth} {q : ByteQueue} (h : q.Wf w) :
    q.debugAsserts w = .ok () := by
  have htail : q.tail < q.capacity := by
    rw [h.tail_eq]
    exact Nat.mod_lt _ h.capacity_pos
  rw [debugAsserts]
  rw [Checked.assert_ok h.len_le, Checked.assert_ok (Or.inl h.head_lt),
    Checked.assert_ok (Or.inl htail), UsizeWidth.mul_ok h.storage_fits]
  exact Checked.assert_ok h.storage_length

private theorem slot_end_le {w : UsizeWidth} {q : ByteQueue} (h : q.Wf w) {j : Nat}
    (hj : j < q.capacity) : j * q.messageSize + q.messageSize ≤ q.storage.length := by
  rw [h.storage_length]
  calc j * q.messageSize + q.messageSize = (j + 1) * q.messageSize := (Nat.succ_mul _ _).symm
    _ ≤ q.capacity * q.messageSize := Nat.mul_le_mul_right _ hj

private theorem capacity_lt {w : UsizeWidth} {q : ByteQueue} (h : q.Wf w) :
    q.capacity < 2 ^ w.bits :=
  lt_of_le_of_lt (Nat.le_mul_of_pos_right _ h.size_pos) h.storage_fits

private theorem tail_lt {w : UsizeWidth} {q : ByteQueue} (h : q.Wf w) : q.tail < q.capacity := by
  rw [h.tail_eq]
  exact Nat.mod_lt _ h.capacity_pos

/-- `try_send` on a well-formed queue: no fault, the error precedence of the source, and the
message in the next slot otherwise. -/
theorem trySend_eq {w : UsizeWidth} {q : ByteQueue} (h : q.Wf w) (message : Message) :
    q.trySend w message = .ok
      (if message.length ≠ q.messageSize then (.error .invalidMessageSize, q)
       else if q.closed then (.error .queueClosed, q)
       else if q.len = q.capacity then (.error .queueFull, q)
       else (.ok (), q.pushed message)) := by
  rw [trySend]
  rw [debugAsserts_ok h]
  by_cases hsize : message.length = q.messageSize
  · by_cases hclosed : q.closed = true
    · simp [hsize, hclosed, bind, Except.bind, pure, Except.pure]
    · by_cases hfull : q.len = q.capacity
      · simp [hsize, hclosed, hfull, isFull, bind, Except.bind, pure, Except.pure]
      · have hend := slot_end_le h (tail_lt h)
        have hfit := h.storage_fits
        rw [← h.storage_length] at hfit
        have hcap := capacity_lt h
        have htail := tail_lt h
        have hlen := h.len_le
        have hoffset : w.mul q.tail q.messageSize = _ := UsizeWidth.mul_ok (by omega)
        have hstop : w.add (q.tail * q.messageSize) q.messageSize = _ :=
          UsizeWidth.add_ok (by omega)
        have hcopy := Checked.copyFromSlice_ok q.storage message
          (Nat.le_add_right (q.tail * q.messageSize) q.messageSize) hend (by omega)
        have hnext : w.add q.tail 1 = _ := UsizeWidth.add_ok (by omega)
        have hrem := Checked.rem_ok (a := q.tail + 1) h.capacity_pos
        have hinc : w.add q.len 1 = _ := UsizeWidth.add_ok (by omega)
        have hassert := Checked.assert_ok (p := q.len < q.capacity) (by omega)
        simp [hsize, hclosed, hfull, isFull, hoffset, hstop, hcopy, hnext, hrem, hinc, hassert,
          bind, Except.bind, pure, Except.pure, pushed]
  · simp [hsize, bind, Except.bind, pure, Except.pure]

/-- `try_recv` on a well-formed queue: no fault, the error precedence of the source, and the
slot at `head` in the caller's buffer otherwise. -/
theorem tryRecv_eq {w : UsizeWidth} {q : ByteQueue} (h : q.Wf w) (out : Message) :
    q.tryRecv w out = .ok
      (if out.length ≠ q.messageSize then (.error .invalidMessageSize, q, out)
       else if q.len = 0 then (.error (if q.closed then .queueClosed else .queueEmpty), q, out)
       else (.ok q.messageSize, q.popped, q.slot q.head)) := by
  rw [tryRecv]
  rw [debugAsserts_ok h]
  by_cases hsize : out.length = q.messageSize
  · by_cases hempty : q.len = 0
    · simp [hsize, hempty, bind, Except.bind, pure, Except.pure]
    · have hend := slot_end_le h h.head_lt
      have hfit := h.storage_fits
      rw [← h.storage_length] at hfit
      have hcap := capacity_lt h
      have hhead := h.head_lt
      have hlen := h.len_le
      have hoffset : w.mul q.head q.messageSize = _ := UsizeWidth.mul_ok (by omega)
      have hstop : w.add (q.head * q.messageSize) q.messageSize = _ :=
        UsizeWidth.add_ok (by omega)
      have hslice := Checked.slice_ok (Nat.le_add_right (q.head * q.messageSize) q.messageSize) hend
      rw [Nat.add_sub_cancel_left] at hslice
      have hslot : (q.slot q.head).length = q.messageSize := by
        simp only [slot, List.length_take, List.length_drop]
        omega
      have hcopy := Checked.copyFromSlice_ok out (q.slot q.head)
        (Nat.zero_le q.messageSize) (by omega) (by omega)
      have hnext : w.add q.head 1 = _ := UsizeWidth.add_ok (by omega)
      have hrem := Checked.rem_ok (a := q.head + 1) h.capacity_pos
      have hdec := Checked.sub_ok (a := q.len) (b := 1) (by omega)
      have hassert := Checked.assert_ok (p := q.len ≤ q.capacity + 1) (by omega)
      have hdrop : out.drop q.messageSize = [] := List.drop_eq_nil_of_le (by omega)
      rw [List.take_zero, hdrop, List.nil_append, List.append_nil] at hcopy
      change Checked.slice q.storage _ _ = .ok (q.slot q.head) at hslice
      simp [hsize, hempty, hoffset, hstop, hslice, hcopy, hnext, hrem, hdec, hassert,
        bind, Except.bind, pure, Except.pure, popped]
  · simp [hsize, bind, Except.bind, pure, Except.pure]

private theorem block_write_other (bytes message : List UInt8) (a b size : Nat)
    (hm : message.length = size) (hb : b + size ≤ bytes.length)
    (hd : a + size ≤ b ∨ b + size ≤ a) :
    ((bytes.take b ++ message ++ bytes.drop (b + size)).drop a).take size =
      (bytes.drop a).take size := by
  apply List.ext_getElem?
  intro i
  simp only [List.getElem?_take, List.getElem?_drop, List.getElem?_append, List.length_append,
    List.length_take]
  by_cases hi : i < size
  · simp only [hi, if_true]
    rcases hd with hd | hd
    · rw [if_pos (by omega), if_pos (by omega), if_pos (by omega)]
    · rw [if_neg (by omega)]
      congr 1
      omega
  · simp [hi]

private theorem block_write_same (bytes message : List UInt8) (b size : Nat)
    (hm : message.length = size) (hb : b + size ≤ bytes.length) :
    ((bytes.take b ++ message ++ bytes.drop (b + size)).drop b).take size = message := by
  have hl : (bytes.take b).length = b := by
    rw [List.length_take]
    omega
  rw [List.append_assoc, List.drop_append_of_le_length (by omega)]
  rw [List.drop_eq_nil_of_le (by omega), List.nil_append, List.take_append_of_le_length (by omega),
    List.take_of_length_le (by omega)]

private theorem slot_index_ne {capacity head i j : Nat} (hij : i < j) (hj : j < capacity) :
    (head + i) % capacity ≠ (head + j) % capacity := by
  intro he
  have hmod : i ≡ j [MOD capacity] := Nat.ModEq.add_left_cancel' head he
  have heq := hmod
  rw [Nat.ModEq, Nat.mod_eq_of_lt (by omega), Nat.mod_eq_of_lt hj] at heq
  omega

theorem pushed_messages {w : UsizeWidth} {q : ByteQueue} (h : q.Wf w) {message : Message}
    (hsize : message.length = q.messageSize) (hroom : q.len < q.capacity) :
    (q.pushed message).messages = q.messages ++ [message] := by
  have hend := slot_end_le h (tail_lt h)
  have hlast : (q.pushed message).slot q.tail = message :=
    block_write_same q.storage message _ _ hsize hend
  have hold (i : Nat) (hi : i < q.len) :
      (q.pushed message).slot ((q.head + i) % q.capacity) = q.slot ((q.head + i) % q.capacity) := by
    refine block_write_other q.storage message ((q.head + i) % q.capacity * q.messageSize)
      (q.tail * q.messageSize) q.messageSize hsize hend ?_
    have hne : (q.head + i) % q.capacity ≠ q.tail := by
      rw [h.tail_eq]
      exact slot_index_ne hi hroom
    rcases Nat.lt_or_gt_of_ne hne with hlt | hgt
    · left
      rw [← Nat.succ_mul]
      exact Nat.mul_le_mul_right _ hlt
    · right
      rw [← Nat.succ_mul]
      exact Nat.mul_le_mul_right _ hgt
  change (List.range (q.len + 1)).map
    (fun i => (q.pushed message).slot ((q.head + i) % q.capacity)) = _
  rw [List.range_succ, List.map_append, List.map_singleton, ← h.tail_eq, hlast]
  congr 1
  exact List.map_congr_left fun i hi => hold i (List.mem_range.mp hi)

theorem popped_messages {w : UsizeWidth} {q : ByteQueue} (h : q.Wf w) (hlen : 0 < q.len) :
    q.messages = q.slot q.head :: q.popped.messages := by
  obtain ⟨n, hn⟩ : ∃ n, q.len = n + 1 := ⟨q.len - 1, by omega⟩
  have hpop : q.popped.messages =
      (List.range n).map fun i => q.slot (((q.head + 1) % q.capacity + i) % q.capacity) := by
    simp only [messages, popped, hn, Nat.add_sub_cancel]
    rfl
  rw [hpop, messages, hn, List.range_succ_eq_map, List.map_cons, List.map_map, Nat.add_zero,
    Nat.mod_eq_of_lt h.head_lt]
  congr 1
  apply List.map_congr_left
  intro i _
  simp only [Function.comp_apply, Nat.mod_add_mod]
  congr 2
  omega

theorem Wf.pushed {w : UsizeWidth} {q : ByteQueue} (h : q.Wf w) {message : Message}
    (hsize : message.length = q.messageSize) (hroom : q.len < q.capacity) :
    (q.pushed message).Wf w where
  capacity_pos := h.capacity_pos
  size_pos := h.size_pos
  storage_length := by
    have hend := slot_end_le h (tail_lt h)
    have hl := h.storage_length
    simp only [ByteQueue.pushed, List.length_append, List.length_take, List.length_drop]
    omega
  storage_fits := h.storage_fits
  head_lt := h.head_lt
  len_le := hroom
  tail_eq := by
    change (q.tail + 1) % q.capacity = (q.head + (q.len + 1)) % q.capacity
    rw [h.tail_eq, Nat.mod_add_mod, Nat.add_assoc]

theorem Wf.popped {w : UsizeWidth} {q : ByteQueue} (h : q.Wf w) (hlen : 0 < q.len) :
    q.popped.Wf w where
  capacity_pos := h.capacity_pos
  size_pos := h.size_pos
  storage_length := h.storage_length
  storage_fits := h.storage_fits
  head_lt := Nat.mod_lt _ h.capacity_pos
  len_le := Nat.le_trans (Nat.sub_le _ _) h.len_le
  tail_eq := by
    change q.tail = ((q.head + 1) % q.capacity + (q.len - 1)) % q.capacity
    rw [h.tail_eq, Nat.mod_add_mod]
    congr 1
    omega

theorem Wf.close {w : UsizeWidth} {q : ByteQueue} (h : q.Wf w) : q.close.Wf w :=
  ⟨h.capacity_pos, h.size_pos, h.storage_length, h.storage_fits, h.head_lt, h.len_le, h.tail_eq⟩

end ByteQueue

end OsalRust
