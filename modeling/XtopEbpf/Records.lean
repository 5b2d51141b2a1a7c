import XtopEbpf.Summary
import XtopEbpf.Watchdog
import XtopEbpf.Tcp
import XtopEbpf.BlockIo
import XtopEbpf.Counters

/-!
# What each accumulation record summarizes

Each accumulation table's record is stated here as a list of rules, one per
summary field: its counters and totals are sums modulo the field's width,
its max fields the largest sample (clamped to 32 bits where the code clamps)
and `tcprtt.c`'s `min_us` the smallest. Every handler's insert and merge
branches respect its rules, so over every sequential run with no insert
dropped each record is the summary of its key's admitted samples, and the
insert branch builds what the merge branch makes of `{}`. The same rules say
how far the counters are monotone: a `__u32` count wraps to 0 at its
`2^32`-th sample.
-/

namespace XtopEbpf.Records

open Runtime Accumulate Summary Pairing Watchdog Tcp BlockIo Counters

section Rules

variable {X R : Type}

/-- A `count` field of `w` bits: one per sample. -/
def countRule (w : Nat) (field : R → Nat) : Rule X R := .sum w field fun _ => 1

end Rules

/-- `struct reclaim_val`: `stall_ns` sums the stalls, `count` counts them. -/
def reclaimRules : List (Rule U64 ReclaimVal) :=
  [.sum 64 (·.stallNs.toNat) (·.toNat), countRule 32 (·.count.toNat)]

/-- `struct lock_val`: `total_wait_ns` sums the waits, `count` counts them. -/
def lockRules : List (Rule U64 LockVal) :=
  [.sum 64 (·.totalWaitNs.toNat) (·.toNat), countRule 32 (·.count.toNat)]

/-- `struct pgfault_val`: `total_ns` sums the fault times, `count` counts the faults and
`major_count` the major ones. -/
def pgfaultRules : List (Rule (U64 × Bool) PgfaultVal) :=
  [.sum 64 (·.totalNs.toNat) (·.1.toNat), countRule 32 (·.count.toNat),
    .sum 32 (·.majorCount.toNat) fun x => if x.2 then 1 else 0]

/-- The `lat_val` of `runqlat.c` and `syscalldissect.c`: `total_ns` sums the latencies, `count`
counts them, `max_ns` is the largest, clamped to 32 bits. -/
def latRules : List (Rule U64 LatVal) :=
  [.sum 64 (·.totalNs.toNat) (·.toNat), countRule 32 (·.count.toNat),
    .max (·.maxNs.toNat) fun d => (clampU32 d).toNat]

/-- `struct offcpu_val`: `total_ns` sums the off-CPU times, `count` counts them. -/
def offcpuRules : List (Rule U64 OffcpuVal) :=
  [.sum 64 (·.totalNs.toNat) (·.toNat), countRule 32 (·.count.toNat)]

/-- `struct sockio_val`: bytes sent, bytes received, the receive waits' sum and count, and the
largest wait clamped to 32 bits. -/
def sockioRules : List (Rule Sockio.Sample SockioVal) :=
  [.sum 64 (·.txBytes.toNat) (fun | .tx size => size.toNat | _ => 0),
    .sum 64 (·.rxBytes.toNat) (fun | .rx size => size.toNat | _ => 0),
    .sum 64 (·.recvWaitNs.toNat) (fun | .recvWait d => d.toNat | _ => 0),
    .sum 32 (·.recvCount.toNat) (fun | .recvWait _ => 1 | _ => 0),
    .max (·.maxRecvNs.toNat) (fun | .recvWait d => (clampU32 d).toNat | _ => 0)]

/-- `struct connlat_val`: `total_ns` sums the connect latencies, `count` counts them, `max_ns` is
the largest, clamped to 32 bits. -/
def connlatRules : List (Rule Tcpconnlat.Sample ConnlatVal) :=
  [.sum 64 (·.totalNs.toNat) (·.delta.toNat), countRule 32 (·.count.toNat),
    .max (·.maxNs.toNat) fun x => (clampU32 x.delta).toNat]

/-- `struct iolat_val`: `total_ns` sums the latencies, `count` counts them, `max_ns` is the
largest, and `slots[b]` counts those whose `log2_slot(delta / 1000)` is `b`. -/
def iolatRules : List (Rule BlockIo.Sample IolatVal) :=
  [.sum 64 (·.totalNs.toNat) (·.delta.toNat), countRule 32 (·.count.toNat),
    .max (·.maxNs.toNat) (·.delta.toNat)] ++
  (List.finRange 16).map fun b =>
    .sum 32 (fun r => (r.slots b).toNat) fun x =>
      if slotIndex (log2Slot (x.delta / 1000)) = b then 1 else 0

/-- `struct throttle_val`, `drop_val` and `state_val`: `count` counts the events. -/
def countRules : List (Rule Unit CountVal) := [countRule 64 (·.count.toNat)]

/-- `struct wb_val`: `count` counts the waits, `total_pages` sums their pages. -/
def wbRules : List (Rule U64 WbVal) :=
  [countRule 64 (·.count.toNat), .sum 64 (·.totalPages.toNat) (·.toNat)]

/-- `struct swap_val`: `read_pages` counts the reads, `write_pages` the writes. -/
def swapRules : List (Rule SwapDir SwapVal) :=
  [.sum 64 (·.readPages.toNat) (fun | .read => 1 | .write => 0),
    .sum 64 (·.writePages.toNat) (fun | .read => 0 | .write => 1)]

/-- `struct reset_val`: `count` counts the resets. -/
def resetRules : List (Rule (U32 × U16) ResetVal) := [countRule 64 (·.count.toNat)]

/-- `struct retrans_val`: `count` counts the retransmits. -/
def retransRules : List (Rule Tcpretrans.Event RetransVal) := [countRule 32 (·.count.toNat)]

/-- `struct net_val`: `tx_bytes` and `rx_bytes` sum the bytes. -/
def netRules : List (Rule (U64 × U64) NetVal) :=
  [.sum 64 (·.txBytes.toNat) (·.1.toNat), .sum 64 (·.rxBytes.toNat) (·.2.toNat)]

/-- `struct rtt_val`: `sum_us` sums the RTTs, `count` counts them, `min_us` and `max_us` are the
smallest and the largest. -/
def rttRules : List (Rule RttSample RttVal) :=
  [.sum 64 (·.sumUs.toNat) (·.srtt.toNat), countRule 32 (·.count.toNat),
    .min (·.minUs.toNat) (·.srtt.toNat), .max (·.maxUs.toNat) (·.srtt.toNat)]

/-- `struct ptrace_val`: `count` counts the recorded requests. -/
def ptraceRules : List (Rule PtraceSample PtraceVal) := [countRule 64 (·.count.toNat)]

/-- `struct mod_val`: `count` counts the loads. -/
def modRules : List (Rule ModSample ModVal) := [countRule 64 (·.count.toNat)]

/-- `struct exec_val`: `count` counts the execs. -/
def execRules : List (Rule Execsnoop.Event ExecVal) := [countRule 64 (·.count.toNat)]

/-! ## The branches respect the rules -/

/-- A smoothed RTT that passed the filter is positive. -/
theorem RttSample.srtt_pos (x : RttSample) : 0 < x.srtt.toNat :=
  Nat.pos_of_ne_zero fun h => x.srtt_ne (BitVec.toNat_eq.mpr h)

/-- The insert branch's histogram holds one sample in its slot. -/
theorem toNat_update_one (s b : Fin 16) :
    (Function.update (fun _ => (0 : U32)) s 1 b).toNat = (if s = b then 1 else 0) % 2 ^ 32 := by
  rw [Function.update_apply]
  split_ifs with h h' h' <;> first | rfl | exact absurd h.symm h' | exact absurd h'.symm h

/-- `__sync_fetch_and_add(&val->slots[slot], 1)` bumps that slot only. -/
theorem toNat_update_bump (slots : Fin 16 → U32) (s b : Fin 16) :
    (Function.update slots s (slots s + 1) b).toNat =
      ((slots b).toNat + if s = b then 1 else 0) % 2 ^ 32 := by
  rw [Function.update_apply]
  split_ifs with h h' h'
  · subst h; simp [BitVec.toNat_add]
  · exact absurd h.symm h'
  · exact absurd h'.symm h
  · simp [-Nat.reducePow, BitVec.toNat_mod_cancel]

/-- The merge branch and `new_val` of `directreclaim.c` keep every rule of its record. -/
theorem reclaimRules_respected : ∀ ρ ∈ reclaimRules, ρ.Respects reclaimMerge reclaimNew := by
  simp [-Nat.reducePow, reclaimRules, countRule, Rule.Respects, reclaimMerge, reclaimNew,
    BitVec.toNat_add]

/-- The merge branch and `new_val` of `lockwait.c` keep every rule of its record. -/
theorem lockRules_respected : ∀ ρ ∈ lockRules, ρ.Respects lockMerge lockNew := by
  simp [-Nat.reducePow, lockRules, countRule, Rule.Respects, lockMerge, lockNew, BitVec.toNat_add]

/-- The merge branch and `new_val` of `pgfault.c` keep every rule of its record. -/
theorem pgfaultRules_respected : ∀ ρ ∈ pgfaultRules, ρ.Respects pgfaultMerge pgfaultNew := by
  simp [-Nat.reducePow, pgfaultRules, countRule, Rule.Respects, pgfaultMerge, pgfaultNew,
    BitVec.toNat_add, apply_ite BitVec.toNat]

/-- The merge branch and `new_val` of `runqlat.c` and `syscalldissect.c` keep every rule of
their record. -/
theorem latRules_respected : ∀ ρ ∈ latRules, ρ.Respects latMerge latNew := by
  simp [-Nat.reducePow, latRules, countRule, Rule.Respects, latMerge, latNew, BitVec.toNat_add,
    toNat_maxStore]

/-- The merge branch and `new_val` of `offcpu.c` keep every rule of its record. -/
theorem offcpuRules_respected : ∀ ρ ∈ offcpuRules, ρ.Respects offcpuMerge offcpuNew := by
  simp [-Nat.reducePow, offcpuRules, countRule, Rule.Respects, offcpuMerge, offcpuNew,
    BitVec.toNat_add]

/-- The merge branch and `new_val` of `sockio.c` keep every rule of its record. -/
theorem sockioRules_respected : ∀ ρ ∈ sockioRules, ρ.Respects Sockio.merge Sockio.new := by
  simp only [sockioRules, List.mem_cons, List.not_mem_nil, or_false, forall_eq_or_imp,
    forall_eq, Rule.Respects]
  refine ⟨?_, ?_, ?_, ?_, ?_⟩ <;> intro x r <;> cases x <;>
    simp [-Nat.reducePow, Sockio.merge, Sockio.new, BitVec.toNat_add, toNat_maxStore]

/-- The merge branch and `new_val` of `tcpconnlat.c` keep every rule of its record. -/
theorem connlatRules_respected : ∀ ρ ∈ connlatRules, ρ.Respects Tcpconnlat.merge Tcpconnlat.new := by
  simp [-Nat.reducePow, connlatRules, countRule, Rule.Respects, Tcpconnlat.merge, Tcpconnlat.new,
    BitVec.toNat_add, toNat_maxStore]

/-- The merge branch and `new_val` of `iolatency.c` keep every rule of its record. -/
theorem iolatRules_respected : ∀ ρ ∈ iolatRules, ρ.Respects BlockIo.merge BlockIo.new := by
  simp only [iolatRules, List.forall_mem_append, List.forall_mem_map]
  refine ⟨?_, fun b _ x r => ⟨toNat_update_one _ _, toNat_update_bump _ _ _⟩⟩
  simp [-Nat.reducePow, countRule, Rule.Respects, BlockIo.merge, BlockIo.new, BitVec.toNat_add,
    toNat_maxStore]

/-- The merge branch and `new_val` of `cgthrottle.c`, `kfreeskb.c` and `sockstate.c` keep every
rule of their record. -/
theorem countRules_respected : ∀ ρ ∈ countRules, ρ.Respects countMerge countNew := by
  simp [-Nat.reducePow, countRules, countRule, Rule.Respects, countMerge, countNew, BitVec.toNat_add]

/-- The merge branch and `new_val` of `wbstall.c` keep every rule of its record. -/
theorem wbRules_respected : ∀ ρ ∈ wbRules, ρ.Respects Wbstall.merge Wbstall.new := by
  simp [-Nat.reducePow, wbRules, countRule, Rule.Respects, Wbstall.merge, Wbstall.new,
    BitVec.toNat_add]

/-- The merge branch and `new_val` of `swapevict.c` keep every rule of its record. -/
theorem swapRules_respected : ∀ ρ ∈ swapRules, ρ.Respects Swapevict.merge Swapevict.new := by
  simp only [swapRules, List.mem_cons, List.not_mem_nil, or_false, forall_eq_or_imp,
    forall_eq, Rule.Respects]
  refine ⟨?_, ?_⟩ <;> intro x r <;> cases x <;>
    simp [-Nat.reducePow, Swapevict.merge, Swapevict.new, BitVec.toNat_add]

/-- The merge branch and `new_val` of `tcpreset.c` keep every rule of its record. -/
theorem resetRules_respected : ∀ ρ ∈ resetRules, ρ.Respects Tcpreset.merge Tcpreset.new := by
  simp [-Nat.reducePow, resetRules, countRule, Rule.Respects, Tcpreset.merge, Tcpreset.new,
    BitVec.toNat_add]

/-- The merge branch and `new_val` of `tcpretrans.c` keep every rule of its record. -/
theorem retransRules_respected : ∀ ρ ∈ retransRules, ρ.Respects Tcpretrans.merge Tcpretrans.new := by
  simp [-Nat.reducePow, retransRules, countRule, Rule.Respects, Tcpretrans.merge, Tcpretrans.new,
    BitVec.toNat_add]

/-- The merge branch and `new_val` of `netthroughput.c` keep every rule of its record. -/
theorem netRules_respected : ∀ ρ ∈ netRules, ρ.Respects Netthroughput.merge Netthroughput.new := by
  simp [-Nat.reducePow, netRules, Rule.Respects, Netthroughput.merge, Netthroughput.new,
    BitVec.toNat_add]

/-- The merge branch and `new_val` of `tcprtt.c` keep every rule of its record. -/
theorem rttRules_respected : ∀ ρ ∈ rttRules, ρ.Respects Tcprtt.merge Tcprtt.new := by
  simp [-Nat.reducePow, rttRules, countRule, Rule.Respects, Tcprtt.merge, Tcprtt.new,
    BitVec.toNat_add, toNat_maxStore, toNat_minStore, RttSample.srtt_pos]

/-- The merge branch and `new_val` of `ptracedetect.c` keep every rule of its record. -/
theorem ptraceRules_respected : ∀ ρ ∈ ptraceRules, ρ.Respects Ptracedetect.merge Ptracedetect.new := by
  simp [-Nat.reducePow, ptraceRules, countRule, Rule.Respects, Ptracedetect.merge, Ptracedetect.new,
    BitVec.toNat_add]

/-- The merge branch and `new_val` of `modload.c` keep every rule of its record. -/
theorem modRules_respected : ∀ ρ ∈ modRules, ρ.Respects Modload.merge Modload.new := by
  simp [-Nat.reducePow, modRules, countRule, Rule.Respects, Modload.merge, Modload.new,
    BitVec.toNat_add]

/-- The merge branch and `new_val` of `execsnoop.c` keep every rule of its record. -/
theorem execRules_respected : ∀ ρ ∈ execRules, ρ.Respects Execsnoop.merge Execsnoop.new := by
  simp [-Nat.reducePow, execRules, countRule, Rule.Respects, Execsnoop.merge, Execsnoop.new,
    BitVec.toNat_add]

/-! ## Every record summarizes its samples -/

/-- Every accumulation table, over every run from the loaded maps with no insert dropped, holds a
record exactly for the keys that admitted samples, each record keeps its rules over those
samples, and each `new_val` is the merge branch applied to the zeroed record. -/
theorem records_summarize_admitted_samples :
    RecordLaw directReclaim.toAccumProgram DirectReclaim.init reclaimRules ∧
    RecordLaw lockwait.toAccumProgram Lockwait.init lockRules ∧
    RecordLaw pgfault.toAccumProgram Pgfault.init pgfaultRules ∧
    RecordLaw runqlat.toAccumProgram Runqlat.init latRules ∧
    RecordLaw syscallDissect.toAccumProgram SyscallDissect.init latRules ∧
    RecordLaw offcpu.toAccumProgram Offcpu.init offcpuRules ∧
    RecordLaw sockio Sockio.init sockioRules ∧
    RecordLaw tcpconnlat.toAccumProgram Tcpconnlat.init connlatRules ∧
    RecordLaw iolatency.toAccumProgram Iolatency.init iolatRules ∧
    RecordLaw cgthrottle Cgthrottle.init countRules ∧
    RecordLaw kfreeskb Kfreeskb.init countRules ∧
    RecordLaw sockstate Sockstate.init countRules ∧
    RecordLaw wbstall Wbstall.init wbRules ∧
    RecordLaw swapevict Swapevict.init swapRules ∧
    RecordLaw tcpreset Tcpreset.init resetRules ∧
    RecordLaw tcpretrans Tcpretrans.init retransRules ∧
    RecordLaw netthroughput Netthroughput.init netRules ∧
    RecordLaw tcprtt Tcprtt.init rttRules ∧
    RecordLaw ptracedetect Ptracedetect.init ptraceRules ∧
    RecordLaw modload Modload.init modRules ∧
    RecordLaw execsnoop Execsnoop.init execRules :=
  ⟨recordLaw _ _ (BpfMap.lookupElem_empty _) reclaimRules_respected (by decide),
    recordLaw _ _ (BpfMap.lookupElem_empty _) lockRules_respected (by decide),
    recordLaw _ _ (BpfMap.lookupElem_empty _) pgfaultRules_respected (by decide),
    recordLaw _ _ (BpfMap.lookupElem_empty _) latRules_respected (by decide),
    recordLaw _ _ (BpfMap.lookupElem_empty _) latRules_respected (by decide),
    recordLaw _ _ (BpfMap.lookupElem_empty _) offcpuRules_respected (by decide),
    recordLaw _ _ (BpfMap.lookupElem_empty _) sockioRules_respected (by decide),
    recordLaw _ _ (BpfMap.lookupElem_empty _) connlatRules_respected (by decide),
    recordLaw _ _ (BpfMap.lookupElem_empty _) iolatRules_respected (by decide),
    recordLaw _ _ (BpfMap.lookupElem_empty _) countRules_respected (by decide),
    recordLaw _ _ (BpfMap.lookupElem_empty _) countRules_respected (by decide),
    recordLaw _ _ (BpfMap.lookupElem_empty _) countRules_respected (by decide),
    recordLaw _ _ (BpfMap.lookupElem_empty _) wbRules_respected (by decide),
    recordLaw _ _ (BpfMap.lookupElem_empty _) swapRules_respected (by decide),
    recordLaw _ _ (BpfMap.lookupElem_empty _) resetRules_respected (by decide),
    recordLaw _ _ (BpfMap.lookupElem_empty _) retransRules_respected (by decide),
    recordLaw _ _ (BpfMap.lookupElem_empty _) netRules_respected (by decide),
    recordLaw _ _ (BpfMap.lookupElem_empty _) rttRules_respected (by decide),
    recordLaw _ _ (BpfMap.lookupElem_empty _) ptraceRules_respected (by decide),
    recordLaw _ _ (BpfMap.lookupElem_empty _) modRules_respected (by decide),
    recordLaw _ _ (BpfMap.lookupElem_empty _) execRules_respected (by decide)⟩

/-- Full tables included, every record of every program summarizes the samples of its key
from its insert on: sums, counts, extremes and histogram slots all over one final segment. -/
theorem records_summarize_samples_since_insert :
    SinceInsertLaw directReclaim.toAccumProgram DirectReclaim.init reclaimRules ∧
    SinceInsertLaw lockwait.toAccumProgram Lockwait.init lockRules ∧
    SinceInsertLaw pgfault.toAccumProgram Pgfault.init pgfaultRules ∧
    SinceInsertLaw runqlat.toAccumProgram Runqlat.init latRules ∧
    SinceInsertLaw syscallDissect.toAccumProgram SyscallDissect.init latRules ∧
    SinceInsertLaw offcpu.toAccumProgram Offcpu.init offcpuRules ∧
    SinceInsertLaw sockio Sockio.init sockioRules ∧
    SinceInsertLaw tcpconnlat.toAccumProgram Tcpconnlat.init connlatRules ∧
    SinceInsertLaw iolatency.toAccumProgram Iolatency.init iolatRules ∧
    SinceInsertLaw cgthrottle Cgthrottle.init countRules ∧
    SinceInsertLaw kfreeskb Kfreeskb.init countRules ∧
    SinceInsertLaw sockstate Sockstate.init countRules ∧
    SinceInsertLaw wbstall Wbstall.init wbRules ∧
    SinceInsertLaw swapevict Swapevict.init swapRules ∧
    SinceInsertLaw tcpreset Tcpreset.init resetRules ∧
    SinceInsertLaw tcpretrans Tcpretrans.init retransRules ∧
    SinceInsertLaw netthroughput Netthroughput.init netRules ∧
    SinceInsertLaw tcprtt Tcprtt.init rttRules ∧
    SinceInsertLaw ptracedetect Ptracedetect.init ptraceRules ∧
    SinceInsertLaw modload Modload.init modRules ∧
    SinceInsertLaw execsnoop Execsnoop.init execRules :=
  ⟨sinceInsertLaw _ _ (BpfMap.lookupElem_empty _) reclaimRules_respected,
    sinceInsertLaw _ _ (BpfMap.lookupElem_empty _) lockRules_respected,
    sinceInsertLaw _ _ (BpfMap.lookupElem_empty _) pgfaultRules_respected,
    sinceInsertLaw _ _ (BpfMap.lookupElem_empty _) latRules_respected,
    sinceInsertLaw _ _ (BpfMap.lookupElem_empty _) latRules_respected,
    sinceInsertLaw _ _ (BpfMap.lookupElem_empty _) offcpuRules_respected,
    sinceInsertLaw _ _ (BpfMap.lookupElem_empty _) sockioRules_respected,
    sinceInsertLaw _ _ (BpfMap.lookupElem_empty _) connlatRules_respected,
    sinceInsertLaw _ _ (BpfMap.lookupElem_empty _) iolatRules_respected,
    sinceInsertLaw _ _ (BpfMap.lookupElem_empty _) countRules_respected,
    sinceInsertLaw _ _ (BpfMap.lookupElem_empty _) countRules_respected,
    sinceInsertLaw _ _ (BpfMap.lookupElem_empty _) countRules_respected,
    sinceInsertLaw _ _ (BpfMap.lookupElem_empty _) wbRules_respected,
    sinceInsertLaw _ _ (BpfMap.lookupElem_empty _) swapRules_respected,
    sinceInsertLaw _ _ (BpfMap.lookupElem_empty _) resetRules_respected,
    sinceInsertLaw _ _ (BpfMap.lookupElem_empty _) retransRules_respected,
    sinceInsertLaw _ _ (BpfMap.lookupElem_empty _) netRules_respected,
    sinceInsertLaw _ _ (BpfMap.lookupElem_empty _) rttRules_respected,
    sinceInsertLaw _ _ (BpfMap.lookupElem_empty _) ptraceRules_respected,
    sinceInsertLaw _ _ (BpfMap.lookupElem_empty _) modRules_respected,
    sinceInsertLaw _ _ (BpfMap.lookupElem_empty _) execRules_respected⟩

/-! ## Counters grow only below their width -/

/-- A retransmit by pid 7, from port 443 to port 80 of 127.0.0.1. -/
def retransBy7 : Tcpretrans.Event := ⟨0x700000007, 443, 80, 0x0100007F⟩

/-- After `n` retransmits by one pid, from the empty table, the pid's `count` is `n` modulo
`2^32`. -/
theorem retrans_count_after (n : Nat) (hn : 0 < n) :
    ∃ r, (tcpretrans.run Tcpretrans.init (List.replicate n retransBy7)).lookupElem 7 = some r ∧
      r.count.toNat = n % 2 ^ 32 := by
  have hsamples : tcpretrans.samples Tcpretrans.init (List.replicate n retransBy7) =
      List.replicate n (7, retransBy7) := by
    unfold tcpretrans
    rw [AccumProgram.samples_singleShot, List.filterMap_replicate]
    rfl
  have hof : tcpretrans.samplesOf Tcpretrans.init (List.replicate n retransBy7) 7 =
      List.replicate n retransBy7 := by
    simp [AccumProgram.samplesOf, hsamples, List.filter_replicate]
  have hlaw := summaryLaw tcpretrans Tcpretrans.init (BpfMap.lookupElem_empty _)
    retransRules_respected (List.replicate n retransBy7)
    (by rw [hsamples]; exact noDrop_replicate _ _ _ n _ (.inr (by decide))) 7
  rw [hof] at hlaw
  cases hr : (tcpretrans.accum (tcpretrans.run Tcpretrans.init (List.replicate n retransBy7))).lookupElem 7 with
  | none =>
    rw [hr] at hlaw
    exact absurd (hlaw.1.mp rfl) (by simp [List.replicate_eq_nil_iff, Nat.pos_iff_ne_zero.mp hn])
  | some r =>
    refine ⟨r, hr, ?_⟩
    simpa [Rule.Holds, countRule, List.sum_replicate] using hlaw.2 r hr _ (List.mem_singleton_self _)

/-- The `tcpretrans.c` count of one process wraps to 0 at its 2^32-nd retransmit. -/
theorem retrans_count_wraps :
    ((tcpretrans.run Tcpretrans.init (List.replicate (2 ^ 32 - 1) retransBy7)).lookupElem 7).map
        (·.count) = some 0xFFFFFFFF ∧
      ((tcpretrans.run Tcpretrans.init (List.replicate (2 ^ 32) retransBy7)).lookupElem 7).map
        (·.count) = some 0 := by
  obtain ⟨r, hr, hc⟩ := retrans_count_after (2 ^ 32 - 1) (by decide)
  obtain ⟨r', hr', hc'⟩ := retrans_count_after (2 ^ 32) (by decide)
  rw [hr, hr']
  exact ⟨congrArg some (BitVec.eq_of_toNat_eq (by rw [hc]; rfl)),
    congrArg some (BitVec.eq_of_toNat_eq (by rw [hc']; rfl))⟩

/-- Every additive field of every record equals the sum of the samples merged since its
insert, taken modulo its width, and grows over any further run while that sum fits. -/
theorem additive_fields_grow_below_width :
    GrowthLaw directReclaim.toAccumProgram DirectReclaim.init reclaimRules ∧
    GrowthLaw lockwait.toAccumProgram Lockwait.init lockRules ∧
    GrowthLaw pgfault.toAccumProgram Pgfault.init pgfaultRules ∧
    GrowthLaw runqlat.toAccumProgram Runqlat.init latRules ∧
    GrowthLaw syscallDissect.toAccumProgram SyscallDissect.init latRules ∧
    GrowthLaw offcpu.toAccumProgram Offcpu.init offcpuRules ∧
    GrowthLaw sockio Sockio.init sockioRules ∧
    GrowthLaw tcpconnlat.toAccumProgram Tcpconnlat.init connlatRules ∧
    GrowthLaw iolatency.toAccumProgram Iolatency.init iolatRules ∧
    GrowthLaw cgthrottle Cgthrottle.init countRules ∧
    GrowthLaw kfreeskb Kfreeskb.init countRules ∧
    GrowthLaw sockstate Sockstate.init countRules ∧
    GrowthLaw wbstall Wbstall.init wbRules ∧
    GrowthLaw swapevict Swapevict.init swapRules ∧
    GrowthLaw tcpreset Tcpreset.init resetRules ∧
    GrowthLaw tcpretrans Tcpretrans.init retransRules ∧
    GrowthLaw netthroughput Netthroughput.init netRules ∧
    GrowthLaw tcprtt Tcprtt.init rttRules ∧
    GrowthLaw ptracedetect Ptracedetect.init ptraceRules ∧
    GrowthLaw modload Modload.init modRules ∧
    GrowthLaw execsnoop Execsnoop.init execRules :=
  ⟨growthLaw _ _ (BpfMap.lookupElem_empty _) reclaimRules_respected,
    growthLaw _ _ (BpfMap.lookupElem_empty _) lockRules_respected,
    growthLaw _ _ (BpfMap.lookupElem_empty _) pgfaultRules_respected,
    growthLaw _ _ (BpfMap.lookupElem_empty _) latRules_respected,
    growthLaw _ _ (BpfMap.lookupElem_empty _) latRules_respected,
    growthLaw _ _ (BpfMap.lookupElem_empty _) offcpuRules_respected,
    growthLaw _ _ (BpfMap.lookupElem_empty _) sockioRules_respected,
    growthLaw _ _ (BpfMap.lookupElem_empty _) connlatRules_respected,
    growthLaw _ _ (BpfMap.lookupElem_empty _) iolatRules_respected,
    growthLaw _ _ (BpfMap.lookupElem_empty _) countRules_respected,
    growthLaw _ _ (BpfMap.lookupElem_empty _) countRules_respected,
    growthLaw _ _ (BpfMap.lookupElem_empty _) countRules_respected,
    growthLaw _ _ (BpfMap.lookupElem_empty _) wbRules_respected,
    growthLaw _ _ (BpfMap.lookupElem_empty _) swapRules_respected,
    growthLaw _ _ (BpfMap.lookupElem_empty _) resetRules_respected,
    growthLaw _ _ (BpfMap.lookupElem_empty _) retransRules_respected,
    growthLaw _ _ (BpfMap.lookupElem_empty _) netRules_respected,
    growthLaw _ _ (BpfMap.lookupElem_empty _) rttRules_respected,
    growthLaw _ _ (BpfMap.lookupElem_empty _) ptraceRules_respected,
    growthLaw _ _ (BpfMap.lookupElem_empty _) modRules_respected,
    growthLaw _ _ (BpfMap.lookupElem_empty _) execRules_respected⟩

end XtopEbpf.Records
