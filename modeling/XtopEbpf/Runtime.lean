import Mathlib.Data.List.AList
import Mathlib.Algebra.Order.Ring.Nat

/-!
# The BPF runtime the probe programs run against

Kernel words are bit vectors of the C types' widths. A `BPF_MAP_TYPE_HASH` map
is its observable content, one element per key, with `max_entries` fixed when
the map is created: the bound is a field of the structure, so no operation can
build an overfull map. `bpf_map_update_elem` follows the kernel's flag
semantics, and a store through the pointer `bpf_map_lookup_elem` returned is
`writeElem`. Concurrent access is modelled separately, one atomic step at a time.
-/

namespace XtopEbpf.Runtime

/-- `__u8`, also a `char`. -/
abbrev U8 := BitVec 8

/-- `__u16`. -/
abbrev U16 := BitVec 16

/-- `__u32`. -/
abbrev U32 := BitVec 32

/-- `__u64`. -/
abbrev U64 := BitVec 64

/-- `bpf_get_current_pid_tgid() >> 32` stored into a `__u32`: the process id. -/
def tgidOf (pidTgid : U64) : U32 := (pidTgid >>> 32).setWidth 32

/-- `(__u32)bpf_get_current_pid_tgid()`: the thread id. -/
def tidOf (pidTgid : U64) : U32 := pidTgid.setWidth 32

/-- `bpf_probe_read_kernel_str` into the buffer `buf`: the source string up to its NUL, at most
`buf.length - 1` bytes of it, then the NUL; the buffer's later bytes keep what they held. -/
def readStrInto (buf src : List U8) : List U8 :=
  let s := (src.takeWhile (· ≠ 0)).take (buf.length - 1)
  s ++ 0 :: buf.drop (s.length + 1)

/-- A string read into a buffer fills the buffer exactly. -/
theorem length_readStrInto (buf src : List U8) (h : 0 < buf.length) :
    (readStrInto buf src).length = buf.length := by
  have ht := List.length_take_le (buf.length - 1) (src.takeWhile (· ≠ 0))
  simp only [readStrInto, List.length_append, List.length_cons, List.length_drop]
  omega

/-- The process id is the upper half of the helper's word. -/
theorem tgidOf_toNat (pidTgid : U64) : (tgidOf pidTgid).toNat = pidTgid.toNat / 2^32 := by
  have h := pidTgid.isLt
  simp only [tgidOf, BitVec.toNat_setWidth, BitVec.toNat_ushiftRight, Nat.shiftRight_eq_div_pow]
  omega

/-- The fields of a `struct task_struct` the programs read with `BPF_CORE_READ`. -/
structure Task where
  /-- `pid`: the thread id. -/
  pid : U32
  /-- `tgid`: the process id. -/
  tgid : U32
  /-- `__state`. -/
  state : U32
  deriving DecidableEq, Repr

/-- The fields of a `struct sock`, and of the `struct tcp_sock` around it, the programs read. -/
structure Sock where
  /-- `__sk_common.skc_daddr`. -/
  skcDaddr : U32
  /-- `__sk_common.skc_dport`, in network byte order. -/
  skcDport : U16
  /-- `srtt_us` of the `tcp_sock`, which the program shifts right by 3. -/
  srttUs : U32
  deriving DecidableEq, Repr

/-- The clamp `delta > 0xFFFFFFFF ? 0xFFFFFFFF : (__u32)delta` of the 32-bit max fields. -/
def clampU32 (delta : U64) : U32 := if delta > 0xFFFFFFFF then 0xFFFFFFFF else delta.setWidth 32

/-- The clamp caps a duration at the largest `__u32` and never wraps it. -/
theorem clampU32_toNat (delta : U64) : (clampU32 delta).toNat = min delta.toNat 0xFFFFFFFF := by
  unfold clampU32
  split <;> simp_all [BitVec.lt_def] <;> omega

/-- `__builtin_bswap16`: exchange the two bytes of a port. -/
def bswap16 (x : U16) : U16 := BitVec.ofNat 16 (x.toNat % 256 * 256 + x.toNat / 256)

/-- Swapping twice restores the port, so the swap loses no information. -/
theorem bswap16_bswap16 (x : U16) : bswap16 (bswap16 x) = x := by
  have h := x.isLt
  have hlt : x.toNat % 256 * 256 + x.toNat / 256 < 2^16 := by omega
  have hlo : (x.toNat % 256 * 256 + x.toNat / 256) % 256 = x.toNat / 256 := by omega
  have hhi : (x.toNat % 256 * 256 + x.toNat / 256) / 256 = x.toNat % 256 := by omega
  apply BitVec.eq_of_toNat_eq
  simp only [bswap16, BitVec.toNat_ofNat, Nat.mod_eq_of_lt hlt, hlo, hhi]
  omega

/-- Replacing entry `i` of a list of invocations changes what index `i` reads only. -/
theorem getElem?_set_of_getElem? {α : Type} {l : List α} {i : Nat} {p : α} (hp : l[i]? = some p)
    (a : α) (j : Nat) : (l.set i a)[j]? = if j = i then some a else l[j]? := by
  rw [List.getElem?_set]
  by_cases h : j = i
  · subst h
    simp [(List.getElem?_eq_some_iff.mp hp).1]
  · simp [Ne.symm h, h]

/-- Writing back what index `i` holds leaves the list as it is. -/
theorem set_of_getElem? {α : Type} {l : List α} {i : Nat} {p : α} (hp : l[i]? = some p) :
    l.set i p = l :=
  List.ext_getElem? fun j => by
    rw [getElem?_set_of_getElem? hp]
    split_ifs with h
    · rw [h, hp]
    · rfl

/-- Invocations placed from index `i` on, one per element of `b :: bs`, keep their places from
index `i + 1` on when entry `i` is replaced. -/
theorem getElem?_set_succ {α β : Type} {l : List α} {i : Nat} {p : α} (hp : l[i]? = some p)
    (a : α) {g : β → α} {b : β} {bs : List β}
    (h : ∀ j y, (b :: bs)[j]? = some y → l[i + j]? = some (g y)) :
    ∀ j y, bs[j]? = some y → (l.set i a)[i + 1 + j]? = some (g y) := fun j y hj => by
  rw [getElem?_set_of_getElem? hp, if_neg (by omega), Nat.add_assoc]
  exact h (1 + j) y (by rw [Nat.add_comm]; simpa using hj)

/-- Flags of `bpf_map_update_elem`: `BPF_ANY`, `BPF_NOEXIST` and `BPF_EXIST`. -/
inductive UpdateFlag where
  | any
  | noexist
  | exist
  deriving DecidableEq, Repr

/-- `ENOENT`: `BPF_EXIST` for a missing key. -/
def ENOENT : Int := 2

/-- `EEXIST`: `BPF_NOEXIST` for a present key. -/
def EEXIST : Int := 17

/-- `E2BIG`: a new key for a map already holding `max_entries` elements. -/
def E2BIG : Int := 7

/-- A hash map whose `max_entries`, fixed at creation, bounds its element count. -/
structure BpfMap (K V : Type) where
  /-- `max_entries` of the map definition. -/
  maxEntries : Nat
  /-- The live elements, one value per key. -/
  elems : AList (fun _ : K => V)
  /-- The kernel never lets the element count pass `max_entries`. -/
  size_le : elems.keys.length ≤ maxEntries

namespace BpfMap

variable {K V : Type}

/-- The number of elements. -/
def size (m : BpfMap K V) : Nat := m.elems.keys.length

/-- A map as the loader creates it: empty. -/
def empty (maxEntries : Nat) : BpfMap K V := ⟨maxEntries, ∅, by simp [AList.keys_empty]⟩

/-- A map never holds more than `max_entries` elements. -/
theorem size_le_maxEntries (m : BpfMap K V) : m.size ≤ m.maxEntries := m.size_le

@[simp] theorem maxEntries_empty (n : Nat) : (empty n : BpfMap K V).maxEntries = n := rfl

@[simp] theorem size_empty (n : Nat) : (empty n : BpfMap K V).size = 0 := rfl

variable [DecidableEq K]

/-- `bpf_map_lookup_elem`; `none` is the NULL pointer. -/
def lookupElem (m : BpfMap K V) (k : K) : Option V := m.elems.lookup k

/-- An element for `k` fits: `k` is present, or fewer than `max_entries` elements are. -/
def HasRoom (m : BpfMap K V) (k : K) : Prop := k ∈ m.elems ∨ m.size < m.maxEntries

instance (m : BpfMap K V) (k : K) : Decidable (m.HasRoom k) :=
  inferInstanceAs (Decidable (_ ∨ _))

/-- Set the element for `k` where it fits. -/
def put (m : BpfMap K V) (k : K) (v : V) (h : m.HasRoom k) : BpfMap K V where
  maxEntries := m.maxEntries
  elems := m.elems.insert k v
  size_le := by
    have hb := m.size_le
    rw [AList.keys_insert, List.length_cons]
    rcases h with h | h
    · rw [List.length_erase_of_mem (AList.mem_keys.mp h)]
      have : 0 < m.elems.keys.length := List.length_pos_of_mem (AList.mem_keys.mp h)
      omega
    · have := List.length_erase_le k m.elems.keys
      unfold size at h
      omega

/-- `bpf_map_update_elem(map, &k, &v, flags)`: the return value and the map after. -/
def updateElem (m : BpfMap K V) (k : K) (v : V) (flags : UpdateFlag) : Int × BpfMap K V :=
  if h : k ∈ m.elems then
    if flags = .noexist then (-EEXIST, m) else (0, m.put k v (.inl h))
  else if flags = .exist then (-ENOENT, m)
  else if h' : m.size < m.maxEntries then (0, m.put k v (.inr h'))
  else (-E2BIG, m)

/-- `bpf_map_delete_elem(map, &k)`; the return value is never read. -/
def deleteElem (m : BpfMap K V) (k : K) : BpfMap K V where
  maxEntries := m.maxEntries
  elems := m.elems.erase k
  size_le := by
    rw [AList.keys_erase]
    exact (List.length_erase_le k _).trans m.size_le

/-- A store through the pointer `bpf_map_lookup_elem` returned for `k`. -/
def writeElem (m : BpfMap K V) (k : K) (v : V) : BpfMap K V :=
  if h : k ∈ m.elems then m.put k v (.inl h) else m

@[simp] theorem maxEntries_put (m : BpfMap K V) (k : K) (v : V) (h : m.HasRoom k) :
    (m.put k v h).maxEntries = m.maxEntries := rfl

@[simp] theorem maxEntries_deleteElem (m : BpfMap K V) (k : K) :
    (m.deleteElem k).maxEntries = m.maxEntries := rfl

@[simp] theorem maxEntries_updateElem (m : BpfMap K V) (k : K) (v : V) (f : UpdateFlag) :
    (m.updateElem k v f).2.maxEntries = m.maxEntries := by
  unfold updateElem; split_ifs <;> rfl

@[simp] theorem maxEntries_writeElem (m : BpfMap K V) (k : K) (v : V) :
    (m.writeElem k v).maxEntries = m.maxEntries := by
  unfold writeElem; split_ifs <;> rfl

/-- A key is present exactly when its lookup returns a pointer. -/
theorem mem_iff_lookupElem {m : BpfMap K V} {k : K} : k ∈ m.elems ↔ m.lookupElem k ≠ none := by
  rw [lookupElem, Ne, AList.lookup_eq_none, not_not]

@[simp] theorem lookupElem_empty (n : Nat) (k : K) : (empty n : BpfMap K V).lookupElem k = none :=
  AList.lookup_empty k

/-- Setting an element changes the lookup of that key only. -/
theorem lookupElem_put (m : BpfMap K V) (k k' : K) (v : V) (h : m.HasRoom k) :
    (m.put k v h).lookupElem k' = if k' = k then some v else m.lookupElem k' := by
  unfold put lookupElem
  split_ifs with hk
  · subst hk; exact AList.lookup_insert _
  · exact AList.lookup_insert_ne hk

/-- Deleting an element changes the lookup of that key only. -/
theorem lookupElem_deleteElem (m : BpfMap K V) (k k' : K) :
    (m.deleteElem k).lookupElem k' = if k' = k then none else m.lookupElem k' := by
  unfold deleteElem lookupElem
  split_ifs with hk
  · subst hk; exact AList.lookup_erase _ _
  · exact AList.lookup_erase_ne hk

/-- Setting an element of a present key keeps the element count. -/
theorem size_put_of_mem (m : BpfMap K V) (k : K) (v : V) (h : m.HasRoom k) (hk : k ∈ m.elems) :
    (m.put k v h).size = m.size := by
  have := List.length_pos_of_mem (AList.mem_keys.mp hk)
  simp only [size, put, AList.keys_insert, List.length_cons,
    List.length_erase_of_mem (AList.mem_keys.mp hk)]
  omega

/-- Setting an element of a new key adds one to the element count. -/
theorem size_put_of_not_mem (m : BpfMap K V) (k : K) (v : V) (h : m.HasRoom k) (hk : k ∉ m.elems) :
    (m.put k v h).size = m.size + 1 := by
  simp only [size, put, AList.keys_insert, List.length_cons,
    List.erase_of_not_mem (fun h => hk (AList.mem_keys.mpr h))]

/-- Where the element fits, `BPF_ANY` sets it and returns 0. -/
theorem updateElem_any (m : BpfMap K V) (k : K) (v : V) (h : m.HasRoom k) :
    m.updateElem k v .any = (0, m.put k v h) := by
  unfold updateElem
  by_cases hk : k ∈ m.elems
  · simp [hk]
  · simp only [hk, dif_neg, not_false_eq_true, reduceCtorEq, if_false,
      dif_pos (h.resolve_left hk)]

/-- `BPF_NOEXIST` leaves a present key's element alone and returns `-EEXIST`. -/
theorem updateElem_noexist_of_mem (m : BpfMap K V) (k : K) (v : V) (hk : k ∈ m.elems) :
    m.updateElem k v .noexist = (-EEXIST, m) := by
  simp [updateElem, hk]

/-- `BPF_NOEXIST` inserts an absent key where it fits and returns 0. -/
theorem updateElem_noexist_of_not_mem (m : BpfMap K V) (k : K) (v : V) (hk : k ∉ m.elems)
    (h : m.HasRoom k) : m.updateElem k v .noexist = (0, m.put k v h) := by
  simp only [updateElem, hk, dif_neg, not_false_eq_true, reduceCtorEq, if_false,
    dif_pos (h.resolve_left hk)]

/-- An absent key with no room is refused under every flag, and the map is unchanged. -/
theorem updateElem_of_not_hasRoom (m : BpfMap K V) (k : K) (v : V) (f : UpdateFlag)
    (h : ¬ m.HasRoom k) : (m.updateElem k v f).1 ≠ 0 ∧ (m.updateElem k v f).2 = m := by
  simp only [HasRoom, not_or] at h
  unfold updateElem
  simp only [h.1, dif_neg, not_false_eq_true, dif_neg h.2]
  split_ifs <;> simp [ENOENT, E2BIG]

/-- A store through a lookup pointer sets the element of that present key. -/
theorem writeElem_of_mem (m : BpfMap K V) (k : K) (v : V) (hk : k ∈ m.elems) :
    m.writeElem k v = m.put k v (.inl hk) := dif_pos hk

/-- A map whose every key has an element in another map is no larger than it. -/
theorem size_le_of_lookupElem {m m' : BpfMap K V}
    (h : ∀ k, m.lookupElem k ≠ none → m'.lookupElem k ≠ none) : m.size ≤ m'.size :=
  (List.subperm_of_subset m.elems.keys_nodup fun k hk =>
    AList.mem_keys.mpr (mem_iff_lookupElem.mpr (h k (mem_iff_lookupElem.mp (AList.mem_keys.mp hk))))).length_le

/-- Two maps no helper tells apart: one capacity and the same element at every key. Only the
order of the association list, which no helper exposes, may differ. -/
def SameElems (m m' : BpfMap K V) : Prop :=
  m.maxEntries = m'.maxEntries ∧ ∀ k, m.lookupElem k = m'.lookupElem k

namespace SameElems

variable {m m' m'' : BpfMap K V}

/-- A map is alike to itself. -/
theorem refl (m : BpfMap K V) : SameElems m m := ⟨rfl, fun _ => rfl⟩

/-- Likeness chains. -/
theorem trans (h : SameElems m m') (h' : SameElems m' m'') : SameElems m m'' :=
  ⟨h.1.trans h'.1, fun k => (h.2 k).trans (h'.2 k)⟩

/-- Alike maps hold the same keys. -/
theorem mem_iff (h : SameElems m m') (k : K) : k ∈ m.elems ↔ k ∈ m'.elems := by
  rw [mem_iff_lookupElem, mem_iff_lookupElem, h.2 k]

/-- Alike maps have the same size. -/
theorem size_eq (h : SameElems m m') : m.size = m'.size :=
  le_antisymm (size_le_of_lookupElem fun k hk => h.2 k ▸ hk)
    (size_le_of_lookupElem fun k hk => (h.2 k).symm ▸ hk)

/-- Maps no helper tells apart answer an update alike and stay alike. -/
theorem updateElem (h : SameElems m m') (k : K) (v : V) (f : UpdateFlag) :
    (m.updateElem k v f).1 = (m'.updateElem k v f).1 ∧
      SameElems (m.updateElem k v f).2 (m'.updateElem k v f).2 := by
  have hput : ∀ (hr : m.HasRoom k) (hr' : m'.HasRoom k), SameElems (m.put k v hr) (m'.put k v hr') :=
    fun hr hr' => ⟨h.1, fun j => by rw [lookupElem_put, lookupElem_put, h.2 j]⟩
  unfold BpfMap.updateElem
  by_cases hk : k ∈ m.elems
  · have hk' := (h.mem_iff k).mp hk
    simp only [dif_pos hk, dif_pos hk']
    split_ifs
    · exact ⟨rfl, h⟩
    · exact ⟨rfl, hput (.inl hk) (.inl hk')⟩
  · have hk' : k ∉ m'.elems := fun e => hk ((h.mem_iff k).mpr e)
    simp only [dif_neg hk, dif_neg hk', h.size_eq, h.1]
    split_ifs with _ hs
    · exact ⟨rfl, h⟩
    · exact ⟨rfl, hput (.inr (by rw [h.size_eq, h.1]; exact hs)) (.inr hs)⟩
    · exact ⟨rfl, h⟩

/-- Maps no helper tells apart stay alike under a store through a lookup pointer. -/
theorem writeElem (h : SameElems m m') (k : K) (v : V) :
    SameElems (m.writeElem k v) (m'.writeElem k v) := by
  unfold BpfMap.writeElem
  by_cases hk : k ∈ m.elems
  · rw [dif_pos hk, dif_pos ((h.mem_iff k).mp hk)]
    exact ⟨h.1, fun j => by rw [lookupElem_put, lookupElem_put, h.2 j]⟩
  · rw [dif_neg hk, dif_neg fun e => hk ((h.mem_iff k).mpr e)]
    exact h

end SameElems

end BpfMap

end XtopEbpf.Runtime
