import XtopEbpf.Summary
import XtopEbpf.Tcp
import XtopEbpf.Counters
import Mathlib.Data.BitVec

/-!
# Per-process and per-connection byte counters

`netthroughput.c` and `sockio.c` hook the same two kernel functions,
`tcp_sendmsg` and `tcp_cleanup_rbuf`, through separately written filters: the
first counts bytes per pid, the second per pid and remote endpoint. An upsert
moves a table's sum over its records by exactly what the sample adds
(`tableSum_upsertSample`), so with no insert dropped both tables' sums are the
sums of their runs' samples, and one kernel call adds the same bytes to a pid
in both programs. A pid's bytes in `net_accum` are then its connections' bytes
in `sockio_accum`, modulo `2^64`. The receive-latency pair of `sockio.c`
creates records too, with no bytes.
-/

namespace XtopEbpf.ByteCounters

open Runtime Accumulate Summary Pairing Tcp Counters

section TableSum

variable {K R X : Type}

/-- The sum over a table's records of `g key record`, in `__u64` arithmetic. -/
def tableSum (g : K → R → U64) (m : BpfMap K R) : U64 :=
  (m.elems.entries.map fun s => g s.1 s.2).sum

@[simp] theorem tableSum_empty (g : K → R → U64) (n : Nat) : tableSum g (BpfMap.empty n) = 0 := rfl

variable [DecidableEq K]

/-- A table's sum is its record at `k`, if any, and the rest. -/
theorem tableSum_eq_deleteElem (g : K → R → U64) (m : BpfMap K R) (k : K) :
    tableSum g m = (m.lookupElem k).elim 0 (g k) + tableSum g (m.deleteElem k) := by
  show _ = _ + ((m.elems.entries.kerase k).map _).sum
  by_cases hk : k ∈ m.elems.entries.keys
  · obtain ⟨b, l₁, l₂, -, he, hker⟩ := List.exists_of_kerase hk
    have hl : m.lookupElem k = some b := List.mem_dlookup m.elems.nodupKeys (by rw [he]; simp)
    rw [hl, hker, tableSum, he]
    simp only [List.map_append, List.map_cons, List.sum_append, List.sum_cons, Option.elim]
    exact add_left_comm _ _ _
  · have hl : m.lookupElem k = none := List.dlookup_eq_none.mpr hk
    rw [hl, List.kerase_of_not_mem_keys hk, Option.elim, zero_add]
    rfl

/-- Setting an element puts its term in place of the key's old one. -/
theorem tableSum_put (g : K → R → U64) (m : BpfMap K R) (k : K) (v : R) (h : m.HasRoom k) :
    tableSum g (m.put k v h) = g k v + tableSum g (m.deleteElem k) := by
  simp only [tableSum, BpfMap.put, AList.insert_entries, List.map_cons, List.sum_cons]
  rfl

/-- Where the key fits, an upsert puts the record it writes in place of the key's old one. -/
theorem tableSum_upsert (g : K → R → U64) {m : BpfMap K R} {k : K} (merge : R → R) (new : R)
    (h : m.HasRoom k) :
    tableSum g (upsert m k merge new) =
      g k ((m.lookupElem k).elim new merge) + tableSum g (m.deleteElem k) := by
  unfold upsert
  cases hk : m.lookupElem k <;> dsimp only
  case some r =>
    rw [BpfMap.writeElem_of_mem _ _ _ (BpfMap.mem_iff_lookupElem.mpr (by simp [hk])), tableSum_put]
    rfl
  case none =>
    rw [BpfMap.updateElem_noexist_of_not_mem _ _ _ (fun hm => BpfMap.mem_iff_lookupElem.mp hm hk) h,
      tableSum_put]
    rfl

/-- A sum whose terms vanish off the key `k` is the term of `k`'s record. -/
theorem tableSum_single (g : K → R → U64) (m : BpfMap K R) (k : K) (hg : ∀ k' r, k' ≠ k → g k' r = 0) :
    tableSum g m = (m.lookupElem k).elim 0 (g k) := by
  rw [tableSum_eq_deleteElem g m k, add_right_eq_self]
  refine List.sum_eq_zero fun _ hx => ?_
  obtain ⟨s, hs, rfl⟩ := List.mem_map.mp hx
  refine hg _ _ fun hsk => ?_
  have hmem := BpfMap.mem_iff_lookupElem.mp (hsk ▸ AList.mem_keys.mp (List.mem_keys_of_mem hs))
  rw [BpfMap.lookupElem_deleteElem, if_pos rfl] at hmem
  exact hmem rfl

variable {merge : X → R → R} {new : X → R}

/-- Where the key fits, an upsert adds to an additive sum what its sample's new record holds. -/
theorem tableSum_upsertSample (g : K → R → U64) (hg : ∀ k x r, g k (merge x r) = g k r + g k (new x))
    {m : BpfMap K R} {kx : K × X} (h : m.HasRoom kx.1) :
    tableSum g (upsertSample merge new m kx) = tableSum g m + g kx.1 (new kx.2) := by
  rw [upsertSample, tableSum_upsert _ _ _ h, tableSum_eq_deleteElem g m kx.1]
  cases m.lookupElem kx.1 with
  | none => exact (add_comm _ _).trans (congrArg (· + _) (zero_add _).symm)
  | some r => exact (congrArg (· + _) (hg _ _ _)).trans (add_right_comm _ _ _)

/-- With no insert dropped, folding samples adds to an additive sum what their new records hold. -/
theorem tableSum_foldl (g : K → R → U64) (hg : ∀ k x r, g k (merge x r) = g k r + g k (new x)) :
    ∀ (m : BpfMap K R) (xs : List (K × X)), NoDrop merge new m xs →
      tableSum g (xs.foldl (upsertSample merge new) m) =
        tableSum g m + (xs.map fun kx => g kx.1 (new kx.2)).sum
  | _, [], _ => (add_zero _).symm
  | m, kx :: xs, ⟨h, hrest⟩ => by
    rw [List.foldl_cons, tableSum_foldl g hg _ xs hrest, tableSum_upsertSample g hg h, List.map_cons,
      List.sum_cons, add_assoc]

end TableSum

/-! ## The two programs over one run of kernel calls -/

/-- The sum over `sockio_accum`'s records whose key has pid `p` of the field `f`. -/
def pidSum (f : SockioVal → U64) (m : BpfMap SockioKey SockioVal) (p : U32) : Nat :=
  ((m.elems.entries.filter (·.1.pid = p)).map fun s => (f s.2).toNat).sum

/-- The `__u64` sum of `f` over the records of pid `p` is their sum modulo `2^64`. -/
theorem toNat_tableSum_pid (f : SockioVal → U64) (m : BpfMap SockioKey SockioVal) (p : U32) :
    (tableSum (fun k r => if k.pid = p then f r else 0) m).toNat = pidSum f m p % 2 ^ 64 := by
  unfold tableSum pidSum
  induction m.elems.entries with
  | nil => rfl
  | cons s l ih =>
    simp only [BitVec.ofNat_eq_ofNat] at ih
    by_cases hs : s.1.pid = p
    · simp [hs, ih, BitVec.toNat_add, -Nat.reducePow]
    · simp [hs, ih, -Nat.reducePow]

/-- The invocation of `netthroughput.c` that a kernel call hooked by `sockio.c` makes, if any:
both hook `tcp_sendmsg` and `tcp_cleanup_rbuf`. -/
def netEvent : Sockio.Event → Option Netthroughput.Event
  | .tcpSendmsg pidTgid _ size => some (.tcpSendmsg pidTgid size)
  | .tcpCleanupRbuf pidTgid _ copied => some (.tcpCleanupRbuf pidTgid copied)
  | .recv _ => none

/-- A field of both records that both programs add to, each kernel call by the same bytes. -/
structure SameBytes (fs : SockioVal → U64) (fn : NetVal → U64) : Prop where
  /-- `sockio.c`'s merge branches add what their new record holds. -/
  sockio_merge : ∀ x r, fs (Sockio.merge x r) = fs r + fs (Sockio.new x)
  /-- `netthroughput.c`'s merge branch adds what its new record holds. -/
  net_merge : ∀ x r, fn (Netthroughput.merge x r) = fn r + fn (Netthroughput.new x)
  /-- A send adds the same bytes. -/
  tx : ∀ size, fs (Sockio.new (.tx size)) = fn (Netthroughput.new (size, 0))
  /-- A receive adds the same bytes. -/
  rx : ∀ size, fs (Sockio.new (.rx size)) = fn (Netthroughput.new (0, size))
  /-- A receive wait adds none. -/
  recvWait : ∀ delta, fs (Sockio.new (.recvWait delta)) = 0

/-- `tx_bytes` of `sockio.c` and `netthroughput.c` count the same bytes. -/
theorem sameBytes_tx : SameBytes (·.txBytes) (·.txBytes) where
  sockio_merge x r := by cases x <;> simp [Sockio.merge, Sockio.new]
  net_merge _ _ := rfl
  tx _ := rfl
  rx _ := rfl
  recvWait _ := rfl

/-- `rx_bytes` of `sockio.c` and `netthroughput.c` count the same bytes. -/
theorem sameBytes_rx : SameBytes (·.rxBytes) (·.rxBytes) where
  sockio_merge x r := by cases x <;> simp [Sockio.merge, Sockio.new]
  net_merge _ _ := rfl
  tx _ := rfl
  rx _ := rfl
  recvWait _ := rfl

section Agreement

variable {fs : SockioVal → U64} {fn : NetVal → U64} (hb : SameBytes fs fn) (p : U32)

/-- Every sample the receive-latency pair hands to the insert-or-merge code is a receive wait. -/
theorem recv_admitted_recvWait (s : Sockio) (e : Sockio.RecvEvent) :
    ∀ kx ∈ sockio.admitted s (.recv e), ∃ delta, kx.2 = .recvWait delta := by
  intro kx hkx
  obtain ⟨c, -, hc⟩ := List.mem_filterMap.mp hkx
  change Sockio.recvTail c = some kx at hc
  unfold Sockio.recvTail at hc
  split_ifs at hc
  cases hc
  exact ⟨_, rfl⟩

include hb in
/-- One kernel call adds the same bytes to pid `p` in both programs. -/
theorem admitted_bytes (s : Sockio) (e : Sockio.Event) :
    ((sockio.admitted s e).map fun kx => if kx.1.pid = p then fs (Sockio.new kx.2) else 0).sum =
      (((netEvent e).bind Netthroughput.keyedSample).toList.map
        fun kx => if kx.1 = p then fn (Netthroughput.new kx.2) else 0).sum := by
  cases e with
  | tcpSendmsg pidTgid sk size =>
    simp only [sockio, netEvent, Netthroughput.keyedSample, Option.bind]
    split_ifs <;> simp_all [Sockio.keyOf, hb.tx]
  | tcpCleanupRbuf pidTgid sk copied =>
    simp only [sockio, netEvent, Netthroughput.keyedSample, Option.bind]
    split_ifs <;> simp_all [Sockio.keyOf, hb.rx]
  | recv e =>
    refine List.sum_eq_zero fun _ hx => ?_
    obtain ⟨kx, hkx, rfl⟩ := List.mem_map.mp hx
    obtain ⟨d, hd⟩ := recv_admitted_recvWait s e kx hkx
    simp [hd, hb.recvWait]

include hb in
/-- A run of kernel calls adds the same bytes to pid `p` in both programs. -/
theorem samples_bytes : ∀ (s : Sockio) (es : List Sockio.Event),
    ((sockio.samples s es).map fun kx => if kx.1.pid = p then fs (Sockio.new kx.2) else 0).sum =
      ((es.filterMap fun e => (netEvent e).bind Netthroughput.keyedSample).map
        fun kx => if kx.1 = p then fn (Netthroughput.new kx.2) else 0).sum
  | _, [] => rfl
  | s, e :: es => by
    rw [AccumProgram.samples, List.map_append, List.sum_append, admitted_bytes hb p s e,
      samples_bytes (sockio.step s e) es, List.filterMap_cons]
    cases (netEvent e).bind Netthroughput.keyedSample <;> simp

include hb in
/-- With no insert dropped in either table, pid `p`'s field in `net_accum` is the sum of the
field over its connections in `sockio_accum`, modulo `2^64`. -/
theorem bytes_agree (es : List Sockio.Event)
    (hnet : NoDrop netthroughput.merge netthroughput.new Netthroughput.init
      (netthroughput.samples Netthroughput.init (es.filterMap netEvent)))
    (hsock : NoDrop sockio.merge sockio.new (sockio.accum Sockio.init) (sockio.samples Sockio.init es)) :
    (((netthroughput.run Netthroughput.init (es.filterMap netEvent)).lookupElem p).elim 0 fn).toNat =
      pidSum fs (sockio.run Sockio.init es).sockioAccum p % 2 ^ 64 := by
  have hsamp : netthroughput.samples Netthroughput.init (es.filterMap netEvent) =
      es.filterMap fun e => (netEvent e).bind Netthroughput.keyedSample := by
    rw [← List.filterMap_filterMap]
    exact AccumProgram.samples_singleShot _ _ _ _ _ _ _
  have hN := tableSum_foldl (fun p' r => if p' = p then fn r else 0)
    (fun k x r => by dsimp only; split_ifs; exacts [hb.net_merge x r, (add_zero 0).symm]) _ _ hnet
  have hS := tableSum_foldl (fun k r => if k.pid = p then fs r else 0)
    (fun k x r => by dsimp only; split_ifs; exacts [hb.sockio_merge x r, (add_zero 0).symm]) _ _ hsock
  have hL : ((netthroughput.run Netthroughput.init (es.filterMap netEvent)).lookupElem p).elim 0 fn =
      tableSum (fun p' r => if p' = p then fn r else 0)
        (netthroughput.run Netthroughput.init (es.filterMap netEvent)) := by
    rw [tableSum_single _ _ p fun _ _ h => if_neg h]
    cases (netthroughput.run Netthroughput.init (es.filterMap netEvent)).lookupElem p <;> simp
  rw [hL, ← toNat_tableSum_pid]
  congr 1
  show tableSum _ (netthroughput.accum (netthroughput.run _ _)) =
    tableSum _ (sockio.accum (sockio.run _ _))
  rw [AccumProgram.accum_run, AccumProgram.accum_run]
  refine (hN.trans ?_).trans hS.symm
  congr 1
  rw [hsamp]
  exact (samples_bytes hb p Sockio.init es).symm

end Agreement

/-- Over every run with no insert dropped, a process's `tx_bytes` and `rx_bytes` in
`netthroughput.c` are the sums over its `sockio.c` records, modulo 2^64. -/
theorem byte_counters_agree (es : List Sockio.Event)
    (hnet : NoDrop netthroughput.merge netthroughput.new Netthroughput.init
      (netthroughput.samples Netthroughput.init (es.filterMap netEvent)))
    (hsock : NoDrop sockio.merge sockio.new (sockio.accum Sockio.init) (sockio.samples Sockio.init es))
    (p : U32) :
    (((netthroughput.run Netthroughput.init (es.filterMap netEvent)).lookupElem p).elim 0
        (·.txBytes)).toNat = pidSum (·.txBytes) (sockio.run Sockio.init es).sockioAccum p % 2 ^ 64 ∧
      (((netthroughput.run Netthroughput.init (es.filterMap netEvent)).lookupElem p).elim 0
        (·.rxBytes)).toNat = pidSum (·.rxBytes) (sockio.run Sockio.init es).sockioAccum p % 2 ^ 64 :=
  ⟨bytes_agree sameBytes_tx p es hnet hsock, bytes_agree sameBytes_rx p es hnet hsock⟩

/-- Pid 7 sends 100 bytes to port 80 and reads 40 back, sends 5 bytes to port 443, and waits
once in `tcp_recvmsg` on the second connection. -/
def twoConnections : List Sockio.Event :=
  [.tcpSendmsg 0x700000007 ⟨0x0100007F, 0x5000, 0⟩ 100,
    .tcpCleanupRbuf 0x700000007 ⟨0x0100007F, 0x5000, 0⟩ 40,
    .tcpSendmsg 0x700000007 ⟨0x0100007F, 0xBB01, 0⟩ 5,
    .recv (.recvEnter 0x700000007 ⟨0x0100007F, 0xBB01, 0⟩ 1000),
    .recv (.recvExit 0x700000007 3000)]

/-- Pid 7's traffic on two connections drops no insert, and its two byte counters agree. -/
theorem byte_counters_agree_on_two_connections :
    NoDrop netthroughput.merge netthroughput.new Netthroughput.init
        (netthroughput.samples Netthroughput.init (twoConnections.filterMap netEvent)) ∧
      NoDrop sockio.merge sockio.new (sockio.accum Sockio.init)
        (sockio.samples Sockio.init twoConnections) ∧
      ((((netthroughput.run Netthroughput.init (twoConnections.filterMap netEvent)).lookupElem 7).elim
          0 (·.txBytes)).toNat =
        pidSum (·.txBytes) (sockio.run Sockio.init twoConnections).sockioAccum 7 % 2 ^ 64 ∧
      (((netthroughput.run Netthroughput.init (twoConnections.filterMap netEvent)).lookupElem 7).elim
          0 (·.rxBytes)).toNat =
        pidSum (·.rxBytes) (sockio.run Sockio.init twoConnections).sockioAccum 7 % 2 ^ 64) :=
  have hnet : NoDrop netthroughput.merge netthroughput.new Netthroughput.init
      (netthroughput.samples Netthroughput.init (twoConnections.filterMap netEvent)) := by decide
  have hsock : NoDrop sockio.merge sockio.new (sockio.accum Sockio.init)
      (sockio.samples Sockio.init twoConnections) := by decide
  ⟨hnet, hsock, byte_counters_agree twoConnections hnet hsock 7⟩

end XtopEbpf.ByteCounters
