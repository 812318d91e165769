import OsalRust.Api.Basic
import OsalRust.Framework.Lts
import OsalRust.Framework.Memory
import Mathlib.Order.CompletePartialOrder

/-!
# The FreeRTOS allocator

The global allocator of the integration image. It asks the FreeRTOS heap for more than the layout
needs, aligns the user pointer inside the block and keeps the block's address in a header right
before the user bytes.

Pointers are addresses, null is 0, and an address computation that left the block would not be
masked by a wrap. The heap's answers are the environment's, and so are the bytes outside the
blocks that it has handed out; the program writes into the user bytes of its live allocations.
-/

namespace OsalRust

def UsizeWidth.checkedAdd (w : UsizeWidth) (a b : Nat) : Option Nat :=
  if a + b < 2 ^ w.bits then some (a + b) else none

namespace FreeRtosAllocator

open Framework

/-- What the target fixes about `AllocationHeader`, which holds one pointer. -/
structure Target where
  width : UsizeWidth
  headerSize : Nat
  headerAlign : Nat
  bits_eq : width.bits = 8 * headerSize
  align_pow : ∃ k, headerAlign = 2 ^ k
  align_dvd : headerAlign ∣ headerSize

/-- `core::alloc::Layout`, less its bound by `isize::MAX`. -/
structure Layout (w : UsizeWidth) where
  size : Nat
  align : Nat
  size_lt : size < 2 ^ w.bits
  align_pow : ∃ k, align = 2 ^ k
  align_lt : align < 2 ^ w.bits
  deriving DecidableEq

inductive HeapCall where
  | alloc (size raw : Nat)
  | dealloc (raw : Nat)
  deriving DecidableEq

/-- `<*mut u8>::align_offset`: the least offset that aligns the address. -/
def alignOffset (addr align : Nat) : Nat := (align - addr % align) % align

variable (t : Target)

def effectiveAlign (layout : Layout t.width) : Nat := max layout.align t.headerAlign

def totalOf (layout : Layout t.width) : Option Nat :=
  (t.width.checkedAdd layout.size t.headerSize).bind fun v =>
    t.width.checkedAdd v (effectiveAlign t layout - 1)

/-- The pointer that a call of `alloc` returns, the memory it leaves and its calls of the heap. -/
structure Allocated where
  pointer : Nat
  mem : Memory
  calls : List HeapCall

/-- `FreeRtosAllocator::alloc`, with the answers of `heap_alloc`. -/
def alloc (heapAlloc : Nat → Nat) (mem : Memory) (layout : Layout t.width) : Allocated :=
  if layout.size = 0 then ⟨0, mem, []⟩
  else
    match totalOf t layout with
    | none => ⟨0, mem, []⟩
    | some total =>
      let raw := heapAlloc total
      if raw = 0 then ⟨0, mem, [.alloc total raw]⟩
      else
        let candidate := raw + t.headerSize
        let offset := alignOffset candidate (effectiveAlign t layout)
        if offset = 2 ^ t.width.bits - 1 then ⟨0, mem, [.alloc total raw, .dealloc raw]⟩
        else
          let user := candidate + offset
          ⟨user, mem.write (user - t.headerSize) (toBytes t.headerSize raw), [.alloc total raw]⟩

/-- `FreeRtosAllocator::dealloc`: its calls of the heap. -/
def dealloc (mem : Memory) (pointer : Nat) : List HeapCall :=
  if pointer = 0 then []
  else [.dealloc (ofBytes (mem.read (pointer - t.headerSize) t.headerSize))]

/-! ## Histories -/

structure Block where
  base : Nat
  size : Nat
  deriving DecidableEq

def Block.bytes (b : Block) : Set Nat := Set.Ico b.base (b.base + b.size)

def HeapCall.apply (blocks : List Block) : HeapCall → List Block
  | .alloc size raw => if raw = 0 then blocks else ⟨raw, size⟩ :: blocks
  | .dealloc raw => blocks.filter (·.base ≠ raw)

/-- A pointer that `alloc` has returned and that has not been freed, with its layout and the
block that `heap_alloc` gave for it. -/
structure Allocation where
  user : Nat
  layout : Layout t.width
  block : Block
  deriving DecidableEq

structure State where
  mem : Memory
  blocks : List Block
  live : List (Allocation t)

inductive Event where
  | alloc (layout : Layout t.width) (result : Allocated)
  | dealloc (pointer : Nat) (calls : List HeapCall)
  | store (addr : Nat)
  | other

variable {t}

/-- What is assumed of `heap_alloc`: it returns null, or a block of the requested size inside the
address space that is apart from the other blocks and aligned for the header. -/
def State.Grants (s : State t) (total raw : Nat) : Prop :=
  raw = 0 ∨ (raw + total ≤ 2 ^ t.width.bits ∧ t.headerAlign ∣ raw ∧
    ∀ b ∈ s.blocks, Disjoint (Block.mk raw total).bytes b.bytes)

def Allocated.enter (layout : Layout t.width) (r : Allocated) (live : List (Allocation t)) :
    List (Allocation t) :=
  match r.calls with
  | .alloc total raw :: _ => if r.pointer = 0 then live else ⟨r.pointer, layout, ⟨raw, total⟩⟩ :: live
  | _ => live

variable (t)

/-- Calls of the allocator, each pointer freed at most once, with writes of the program into its
user bytes and of anybody else into bytes outside all blocks. -/
inductive Step : State t → Event t → State t → Prop
  | alloc {s : State t} (layout : Layout t.width) (heapAlloc : Nat → Nat) :
      (∀ total, totalOf t layout = some total → s.Grants total (heapAlloc total)) →
      Step s (.alloc layout (FreeRtosAllocator.alloc t heapAlloc s.mem layout))
        { mem := (FreeRtosAllocator.alloc t heapAlloc s.mem layout).mem
          blocks := (FreeRtosAllocator.alloc t heapAlloc s.mem layout).calls.foldl HeapCall.apply s.blocks
          live := (FreeRtosAllocator.alloc t heapAlloc s.mem layout).enter layout s.live }
  | deallocNull {s : State t} : Step s (.dealloc 0 (FreeRtosAllocator.dealloc t s.mem 0)) s
  | dealloc {s : State t} {a : Allocation t} : a ∈ s.live →
      Step s (.dealloc a.user (FreeRtosAllocator.dealloc t s.mem a.user))
        { s with
          blocks := (FreeRtosAllocator.dealloc t s.mem a.user).foldl HeapCall.apply s.blocks
          live := s.live.filter (·.user ≠ a.user) }
  | store {s : State t} {a : Allocation t} (addr : Nat) (byte : UInt8) : a ∈ s.live →
      addr ∈ Set.Ico a.user (a.user + a.layout.size) →
      Step s (.store addr) { s with mem := Function.update s.mem addr byte }
  | other {s : State t} (mem : Memory) : (∀ b ∈ s.blocks, ∀ x ∈ b.bytes, mem x = s.mem x) →
      Step s .other { s with mem }

def history : Lts (State t) (Event t) where
  init s := s.blocks = [] ∧ s.live = []
  step := Step t

variable {t}

/-! ## One call -/

section Alignment

variable {align : Nat}

theorem alignOffset_lt (addr : Nat) (h : 0 < align) : alignOffset addr align < align := Nat.mod_lt _ h

theorem dvd_add_alignOffset (addr : Nat) (h : 0 < align) : align ∣ addr + alignOffset addr align := by
  have hr : addr % align < align := Nat.mod_lt addr h
  have haddr := Nat.div_add_mod addr align
  by_cases h0 : addr % align = 0
  · have hoff : alignOffset addr align = 0 := by
      rw [alignOffset, h0, Nat.sub_zero, Nat.mod_self]
    rw [hoff]
    exact Nat.dvd_of_mod_eq_zero h0
  · have hoff : alignOffset addr align = align - addr % align :=
      Nat.mod_eq_of_lt (by omega)
    refine ⟨addr / align + 1, ?_⟩
    rw [hoff, Nat.mul_add, Nat.mul_one]
    omega

end Alignment

section Calls

variable {layout : Layout t.width} {mem : Memory} {heapAlloc : Nat → Nat}

private theorem header_lt (t : Target) : t.headerAlign < 2 ^ t.width.bits := by
  have hpos : 0 < t.headerSize := by
    have := t.width.ge
    have := t.bits_eq
    omega
  calc t.headerAlign ≤ t.headerSize := Nat.le_of_dvd hpos t.align_dvd
    _ ≤ t.width.bits := by rw [t.bits_eq]; omega
    _ < 2 ^ t.width.bits := Nat.lt_two_pow_self

private theorem dvd_max_of_pow {a b : Nat} (ha : ∃ k, a = 2 ^ k) (hb : ∃ k, b = 2 ^ k) :
    a ∣ max a b := by
  obtain ⟨i, rfl⟩ := ha
  obtain ⟨j, rfl⟩ := hb
  rcases Nat.le_total (2 ^ i) (2 ^ j) with h | h
  · rw [Nat.max_eq_right h]
    exact Nat.pow_dvd_pow 2 ((Nat.pow_le_pow_iff_right (by decide)).1 h)
  · rw [Nat.max_eq_left h]

theorem align_dvd_effectiveAlign : layout.align ∣ effectiveAlign t layout :=
  dvd_max_of_pow layout.align_pow t.align_pow

theorem headerAlign_dvd_effectiveAlign : t.headerAlign ∣ effectiveAlign t layout := by
  rw [effectiveAlign, Nat.max_comm]
  exact dvd_max_of_pow t.align_pow layout.align_pow

theorem effectiveAlign_lt (layout : Layout t.width) : effectiveAlign t layout < 2 ^ t.width.bits :=
  Nat.max_lt.2 ⟨layout.align_lt, header_lt t⟩

theorem effectiveAlign_pos (layout : Layout t.width) : 0 < effectiveAlign t layout := by
  obtain ⟨k, hk⟩ := layout.align_pow
  have hpos : 0 < layout.align := hk ▸ Nat.two_pow_pos k
  exact hpos.trans_le (Nat.le_max_left _ _)

theorem totalOf_eq :
    totalOf t layout =
      if layout.size + t.headerSize + (effectiveAlign t layout - 1) < 2 ^ t.width.bits then
        some (layout.size + t.headerSize + (effectiveAlign t layout - 1))
      else none := by
  unfold totalOf UsizeWidth.checkedAdd
  split
  · rfl
  · rw [if_neg (by omega), Option.bind_none]

def userOf (t : Target) (layout : Layout t.width) (raw : Nat) : Nat :=
  raw + t.headerSize + alignOffset (raw + t.headerSize) (effectiveAlign t layout)

/-- What a call of `alloc` does. The offset is less than an alignment, so it is never
`usize::MAX`. -/
theorem alloc_cases (layout : Layout t.width) (mem : Memory) (heapAlloc : Nat → Nat) :
    ((layout.size = 0 ∨ totalOf t layout = none) ∧ alloc t heapAlloc mem layout = ⟨0, mem, []⟩) ∨
      (0 < layout.size ∧ ∃ total, totalOf t layout = some total ∧
        ((heapAlloc total = 0 ∧
            alloc t heapAlloc mem layout = ⟨0, mem, [.alloc total 0]⟩) ∨
          (heapAlloc total ≠ 0 ∧
            alloc t heapAlloc mem layout =
              ⟨userOf t layout (heapAlloc total),
                mem.write (userOf t layout (heapAlloc total) - t.headerSize)
                  (toBytes t.headerSize (heapAlloc total)),
                [.alloc total (heapAlloc total)]⟩))) := by
  by_cases hsize : layout.size = 0
  · exact .inl ⟨.inl hsize, if_pos hsize⟩
  cases htotal : totalOf t layout with
  | none => exact .inl ⟨.inr rfl, by rw [alloc, if_neg hsize, htotal]⟩
  | some total =>
    refine .inr ⟨Nat.pos_of_ne_zero hsize, total, rfl, ?_⟩
    by_cases hraw : heapAlloc total = 0
    · refine .inl ⟨hraw, ?_⟩
      simp only [alloc, if_neg hsize, htotal, hraw, if_true]
    · refine .inr ⟨hraw, ?_⟩
      have hoff : alignOffset (heapAlloc total + t.headerSize) (effectiveAlign t layout) ≠
          2 ^ t.width.bits - 1 := by
        have hlt := alignOffset_lt (heapAlloc total + t.headerSize) (effectiveAlign_pos layout)
        have := effectiveAlign_lt layout
        omega
      simp only [alloc, if_neg hsize, htotal, if_neg hraw, if_neg hoff]
      rfl

end Calls

/-! ## Where an allocation lies -/

namespace Allocation

def header (a : Allocation t) : Nat := a.user - t.headerSize

def headerBytes (a : Allocation t) : Set Nat := Set.Ico a.header (a.header + t.headerSize)

def userBytes (a : Allocation t) : Set Nat := Set.Ico a.user (a.user + a.layout.size)

structure Placed (a : Allocation t) : Prop where
  size_pos : 0 < a.layout.size
  base_pos : 0 < a.block.base
  space : a.block.base + a.block.size ≤ 2 ^ t.width.bits
  aligned : a.layout.align ∣ a.user
  headerAligned : t.headerAlign ∣ a.header
  base_le : a.block.base ≤ a.header
  adjacent : a.header + t.headerSize = a.user
  inside : a.user + a.layout.size ≤ a.block.base + a.block.size

namespace Placed

variable {a : Allocation t}

theorem headerBytes_subset (h : a.Placed) : a.headerBytes ⊆ a.block.bytes := by
  have := h.base_le
  have := h.adjacent
  have := h.inside
  exact Set.Ico_subset_Ico (by omega) (by omega)

theorem userBytes_subset (h : a.Placed) : a.userBytes ⊆ a.block.bytes := by
  have := h.base_le
  have := h.adjacent
  exact Set.Ico_subset_Ico (by omega) h.inside

theorem disjoint (h : a.Placed) : Disjoint a.headerBytes a.userBytes := by
  rw [headerBytes, h.adjacent]
  exact Set.Ico_disjoint_Ico_same

theorem user_mem (h : a.Placed) : a.user ∈ a.block.bytes :=
  h.userBytes_subset ⟨Nat.le_refl _, Nat.lt_add_of_pos_right h.size_pos⟩

theorem base_mem (h : a.Placed) : a.block.base ∈ a.block.bytes := by
  have := h.base_le
  have := h.adjacent
  have := h.inside
  have := h.size_pos
  exact ⟨Nat.le_refl _, by omega⟩

end Placed

end Allocation

theorem placed_userOf {layout : Layout t.width} {raw total : Nat} (hsize : 0 < layout.size)
    (htotal : totalOf t layout = some total) (hraw : 0 < raw)
    (hspace : raw + total ≤ 2 ^ t.width.bits) :
    (Allocation.mk (userOf t layout raw) layout ⟨raw, total⟩).Placed := by
  have hlt := alignOffset_lt (raw + t.headerSize) (effectiveAlign_pos layout)
  have hdvd := dvd_add_alignOffset (raw + t.headerSize) (effectiveAlign_pos layout)
  have htotal' : total = layout.size + t.headerSize + (effectiveAlign t layout - 1) := by
    rw [totalOf_eq] at htotal
    split at htotal
    · exact (Option.some.inj htotal).symm
    · cases htotal
  have hheader : (Allocation.mk (userOf t layout raw) layout ⟨raw, total⟩).header =
      raw + alignOffset (raw + t.headerSize) (effectiveAlign t layout) := by
    simp only [Allocation.header, userOf]
    omega
  refine ⟨hsize, hraw, hspace, align_dvd_effectiveAlign.trans hdvd, ?_, ?_, ?_, ?_⟩
  · have hsum : t.headerAlign ∣ raw + alignOffset (raw + t.headerSize) (effectiveAlign t layout) +
        t.headerSize := by
      rw [Nat.add_right_comm]
      exact headerAlign_dvd_effectiveAlign.trans hdvd
    rw [hheader]
    exact (Nat.dvd_add_left t.align_dvd).1 hsum
  · rw [hheader]
    exact Nat.le_add_right _ _
  · rw [hheader]
    simp only [userOf]
    omega
  · simp only [userOf]
    omega

/-! ## All histories -/

/-- The blocks of the heap are those of the live allocations, which lie where they should, apart
from each other, and each header holds the address of its block. -/
structure Inv (s : State t) : Prop where
  blocks : s.blocks = s.live.map Allocation.block
  placed : ∀ a ∈ s.live, a.Placed
  apart : s.live.Pairwise fun a b => Disjoint a.block.bytes b.block.bytes
  kept : ∀ a ∈ s.live, s.mem.read a.header t.headerSize = toBytes t.headerSize a.block.base

namespace Inv

variable {s s' : State t} {a b : Allocation t} {e : Event t}

theorem disjoint (h : Inv s) (ha : a ∈ s.live) (hb : b ∈ s.live) (hne : a ≠ b) :
    Disjoint a.block.bytes b.block.bytes := by
  have : Std.Symm fun a b : Allocation t => Disjoint a.block.bytes b.block.bytes :=
    ⟨fun _ _ hd => hd.symm⟩
  exact h.apart.forall ha hb hne

theorem eq_of_mem (h : Inv s) (ha : a ∈ s.live) (hb : b ∈ s.live) {x : Nat}
    (hxa : x ∈ a.block.bytes) (hxb : x ∈ b.block.bytes) : a = b := by
  by_contra hne
  exact Set.disjoint_left.1 (h.disjoint ha hb hne) hxa hxb

theorem dealloc_eq (h : Inv s) (ha : a ∈ s.live) :
    FreeRtosAllocator.dealloc t s.mem a.user = [.dealloc a.block.base] := by
  have hp := h.placed a ha
  have hbase := hp.base_pos
  have hle := hp.base_le
  have hadj := hp.adjacent
  have hin := hp.inside
  have hspace := hp.space
  have hsize := hp.size_pos
  have hfits : a.block.base < 256 ^ t.headerSize := by
    rw [show (256 : Nat) = 2 ^ 8 from rfl, ← Nat.pow_mul, ← t.bits_eq]
    omega
  have hkept := h.kept a ha
  rw [Allocation.header] at hkept
  rw [FreeRtosAllocator.dealloc, if_neg (by omega), hkept, ofBytes_toBytes hfits]

theorem of_mem (h : Inv s) {mem : Memory}
    (hmem : ∀ a ∈ s.live, ∀ x ∈ a.headerBytes, mem x = s.mem x) : Inv { s with mem } := by
  refine ⟨h.blocks, h.placed, h.apart, fun a ha => ?_⟩
  rw [← h.kept a ha]
  exact Memory.read_congr (hmem a ha)

theorem store (h : Inv s) (ha : a ∈ s.live) {addr : Nat} (byte : UInt8)
    (haddr : addr ∈ a.userBytes) : Inv { s with mem := Function.update s.mem addr byte } := by
  refine h.of_mem fun b hb x hx => Function.update_of_ne ?_ _ _
  rintro rfl
  obtain rfl := h.eq_of_mem ha hb ((h.placed a ha).userBytes_subset haddr)
    ((h.placed b hb).headerBytes_subset hx)
  exact Set.disjoint_left.1 (h.placed a ha).disjoint hx haddr

theorem free (h : Inv s) (ha : a ∈ s.live) :
    Inv { s with
      blocks := [HeapCall.dealloc a.block.base].foldl HeapCall.apply s.blocks
      live := s.live.filter (·.user ≠ a.user) } := by
  have hiff : ∀ b ∈ s.live, (b.block.base = a.block.base ↔ b.user = a.user) := by
    intro b hb
    refine ⟨fun he => ?_, fun he => ?_⟩
    · rw [h.eq_of_mem hb ha (he ▸ (h.placed b hb).base_mem) (h.placed a ha).base_mem]
    · rw [h.eq_of_mem hb ha (he ▸ (h.placed b hb).user_mem) (h.placed a ha).user_mem]
  refine ⟨?_, fun b hb => h.placed b (List.mem_of_mem_filter hb), h.apart.filter _,
    fun b hb => h.kept b (List.mem_of_mem_filter hb)⟩
  simp only [List.foldl_cons, List.foldl_nil, HeapCall.apply, h.blocks, List.filter_map]
  refine congrArg _ (List.filter_congr fun b hb => ?_)
  simpa using hiff b hb

/-- A new block is apart from the live ones, so its header spares theirs. -/
theorem enter (h : Inv s) {layout : Layout t.width} {raw total : Nat} (hsize : 0 < layout.size)
    (htotal : totalOf t layout = some total) (hraw : raw ≠ 0) (hgrant : s.Grants total raw) :
    Inv
      { mem := s.mem.write (userOf t layout raw - t.headerSize) (toBytes t.headerSize raw)
        blocks := ⟨raw, total⟩ :: s.blocks
        live := ⟨userOf t layout raw, layout, ⟨raw, total⟩⟩ :: s.live } := by
  obtain ⟨hspace, -, hapart⟩ := hgrant.resolve_left hraw
  have hplaced := placed_userOf hsize htotal (Nat.pos_of_ne_zero hraw) hspace
  have happart : ∀ a ∈ s.live, Disjoint (Block.mk raw total).bytes a.block.bytes := by
    intro a ha
    refine hapart a.block ?_
    rw [h.blocks]
    exact List.mem_map_of_mem ha
  refine ⟨?_, fun a ha => ?_, List.pairwise_cons.2 ⟨happart, h.apart⟩, fun a ha => ?_⟩
  · rw [h.blocks]
    rfl
  · rcases List.mem_cons.1 ha with rfl | ha
    · exact hplaced
    · exact h.placed a ha
  · rcases List.mem_cons.1 ha with rfl | ha
    · have hread := Memory.read_write (m := s.mem) (a := userOf t layout raw - t.headerSize)
        (b := toBytes t.headerSize raw)
      rwa [toBytes_length] at hread
    · rw [← h.kept a ha]
      refine Memory.read_congr fun x hx => Memory.write_of_notMem fun hx' => ?_
      rw [toBytes_length] at hx'
      exact Set.disjoint_left.1 (happart a ha) (hplaced.headerBytes_subset hx')
        ((h.placed a ha).headerBytes_subset hx)

theorem step (h : Inv s) (hs : Step t s e s') : Inv s' := by
  cases hs with
  | alloc layout heapAlloc hgrant =>
    rcases alloc_cases layout s.mem heapAlloc with ⟨-, hr⟩ | ⟨hsize, total, htotal, hcase⟩
    · rw [hr]
      exact h
    · rcases hcase with ⟨-, hr⟩ | ⟨hraw, hr⟩
      · rw [hr]
        exact h
      · rw [hr]
        have hnew := h.enter hsize htotal hraw (hgrant total htotal)
        have huser : userOf t layout (heapAlloc total) ≠ 0 := by
          unfold userOf
          omega
        simp only [Allocated.enter, if_neg huser, List.foldl_cons, List.foldl_nil, HeapCall.apply,
          if_neg hraw]
        exact hnew
  | deallocNull => exact h
  | dealloc ha =>
    rw [h.dealloc_eq ha]
    exact h.free ha
  | store addr byte ha haddr => exact h.store ha byte haddr
  | other mem hmem =>
    refine h.of_mem fun a ha x hx => ?_
    refine hmem a.block ?_ x ((h.placed a ha).headerBytes_subset hx)
    rw [h.blocks]
    exact List.mem_map_of_mem ha

end Inv

theorem inv_of_reachable {s : State t} (hr : (history t).Reachable s) : Inv s := by
  refine hr.invariant (I := Inv) ?_ fun s e s' h hs => h.step hs
  rintro s ⟨hblocks, hlive⟩
  refine ⟨?_, ?_, ?_, ?_⟩
  · rw [hblocks, hlive, List.map_nil]
  all_goals
    rw [hlive]
    simp

structure Allocation.Sound (a : Allocation t) : Prop where
  aligned : a.layout.align ∣ a.user
  headerAligned : t.headerAlign ∣ a.header
  header_subset : a.headerBytes ⊆ a.block.bytes
  user_subset : a.userBytes ⊆ a.block.bytes
  disjoint : Disjoint a.headerBytes a.userBytes

theorem Allocation.Placed.sound {a : Allocation t} (h : a.Placed) : a.Sound :=
  ⟨h.aligned, h.headerAligned, h.headerBytes_subset, h.userBytes_subset, h.disjoint⟩

/-- After every history: the live allocations are sound, their user bytes meet neither each other
nor a header, and `dealloc` gives each block back by its own address. A call of `alloc` returns
null without asking the heap where the size of the block overflows, and a pointer that it returns
is that of a sound allocation in the block it was given, whose address it has written into the
header. -/
theorem allocator_correct {s : State t} (hr : (history t).Reachable s) :
    (∀ a ∈ s.live, a.Sound) ∧
    (s.live.Pairwise fun a b => Disjoint a.userBytes b.userBytes ∧
      Disjoint a.userBytes b.headerBytes ∧ Disjoint a.headerBytes b.userBytes) ∧
    (∀ a ∈ s.live, dealloc t s.mem a.user = [.dealloc a.block.base]) ∧
    ∀ (layout : Layout t.width) (heapAlloc : Nat → Nat), 0 < layout.size →
      (2 ^ t.width.bits ≤ layout.size + t.headerSize + (effectiveAlign t layout - 1) →
        alloc t heapAlloc s.mem layout = ⟨0, s.mem, []⟩) ∧
      ((∀ total, totalOf t layout = some total → s.Grants total (heapAlloc total)) →
        (alloc t heapAlloc s.mem layout).pointer ≠ 0 →
        ∃ a : Allocation t, a.Sound ∧ a.layout = layout ∧
          (∀ b ∈ s.live, Disjoint a.block.bytes b.block.bytes) ∧
          alloc t heapAlloc s.mem layout =
            ⟨a.user, s.mem.write a.header (toBytes t.headerSize a.block.base),
              [.alloc a.block.size a.block.base]⟩) := by
  have h := inv_of_reachable hr
  refine ⟨fun a ha => (h.placed a ha).sound, ?_, fun a ha => h.dealloc_eq ha,
    fun layout heapAlloc hsize => ⟨fun hover => ?_, fun hgrant hne => ?_⟩⟩
  · refine h.apart.imp_of_mem fun {a b} ha hb hd => ?_
    have hpa := h.placed a ha
    have hpb := h.placed b hb
    exact ⟨hd.mono hpa.userBytes_subset hpb.userBytes_subset,
      hd.mono hpa.userBytes_subset hpb.headerBytes_subset,
      hd.mono hpa.headerBytes_subset hpb.userBytes_subset⟩
  · have hnone : totalOf t layout = none := by
      rw [totalOf_eq, if_neg (Nat.not_lt.2 hover)]
    rcases alloc_cases layout s.mem heapAlloc with ⟨-, hr⟩ | ⟨-, total, htotal, -⟩
    · exact hr
    · cases hnone.symm.trans htotal
  · rcases alloc_cases layout s.mem heapAlloc with ⟨-, hr⟩ | ⟨-, total, htotal, hcase⟩
    · exact absurd (congrArg Allocated.pointer hr) hne
    · rcases hcase with ⟨-, hr⟩ | ⟨hraw, hr⟩
      · exact absurd (congrArg Allocated.pointer hr) hne
      · obtain ⟨hspace, -, hapart⟩ := (hgrant total htotal).resolve_left hraw
        refine ⟨⟨userOf t layout (heapAlloc total), layout, ⟨heapAlloc total, total⟩⟩,
          (placed_userOf hsize htotal (Nat.pos_of_ne_zero hraw) hspace).sound, rfl,
          fun b hb => hapart b.block ?_, hr⟩
        rw [h.blocks]
        exact List.mem_map_of_mem hb

def cortexM3 : Target where
  width := ⟨32, by decide⟩
  headerSize := 4
  headerAlign := 4
  bits_eq := rfl
  align_pow := ⟨2, rfl⟩
  align_dvd := Nat.dvd_refl 4

def eightOnSixteen : Layout cortexM3.width := ⟨8, 16, by decide, ⟨4, rfl⟩, by decide⟩

/-- The heap gives a block at 4100; the user bytes start at 4112. -/
theorem allocator_correct_sixteen :
    ∃ s, (history cortexM3).Reachable s ∧ s.live = [⟨4112, eightOnSixteen, ⟨4100, 27⟩⟩] ∧
      dealloc cortexM3 s.mem 4112 = [.dealloc 4100] := by
  have h : (history cortexM3).Reachable ⟨fun _ => 0, [], []⟩ := .start ⟨rfl, rfl⟩
  have hgrant : ∀ total, totalOf cortexM3 eightOnSixteen = some total →
      (State.mk (t := cortexM3) (fun _ => 0) [] []).Grants total 4100 := by
    intro total htotal
    obtain rfl : 27 = total := Option.some.inj htotal
    exact .inr ⟨by decide, by decide, nofun⟩
  have h := h.snoc (Step.alloc eightOnSixteen (fun _ => 4100) hgrant)
  exact ⟨_, h, rfl, (allocator_correct h).2.2.1 ⟨4112, eightOnSixteen, ⟨4100, 27⟩⟩
    List.mem_cons_self⟩

end FreeRtosAllocator

end OsalRust
