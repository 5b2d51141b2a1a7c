import XtopEbpf.Atomic
import XtopEbpf.Records
import Mathlib.Data.List.FinRange

/-!
# The merge branches as atomic accesses

Each handler's merge branch, read one statement at a time: a
`__sync_fetch_and_add` or a plain store of a field is one access, and a max
or min update is a load and compare, then the store. Run one after another
the accesses are the merge branch the sequential model runs, and each of them
treats the record's fields as the handler's rules fold them, so every
interleaving of a program's invocations on one table has the guarantees of
`Atomic`. For `iolatency.c` this keeps the histogram in step with the count:
once no invocation is mid-flight, the 16 slots add up to `count`. Run one
invocation at a time, each program's accesses leave the table its sequential
run leaves.
-/

namespace XtopEbpf.AtomicRuns

open Runtime Accumulate Summary Atomic Pairing Watchdog Tcp BlockIo Counters Records

/-! ## The merge branches -/

/-- `handle_reclaim_end`: two `__sync_fetch_and_add`s. -/
def reclaimAccesses (delta : U64) : List (Access ReclaimVal) :=
  [.rmw fun val => { val with stallNs := val.stallNs + delta },
    .rmw fun val => { val with count := val.count + 1 }]

/-- `handle_futex_exit`: two `__sync_fetch_and_add`s. -/
def lockAccesses (delta : U64) : List (Access LockVal) :=
  [.rmw fun val => { val with totalWaitNs := val.totalWaitNs + delta },
    .rmw fun val => { val with count := val.count + 1 }]

/-- `handle_fault_exit`: `major_count` is bumped for a major fault only. -/
def pgfaultAccesses (fault : U64 × Bool) : List (Access PgfaultVal) :=
  [.rmw fun val => { val with totalNs := val.totalNs + fault.1 },
    .rmw fun val => { val with count := val.count + 1 }] ++
  if fault.2 then [.rmw fun val => { val with majorCount := val.majorCount + 1 }] else []

/-- `runqlat.c` and `syscalldissect.c`: two adds, then the racy clamped max. -/
def latAccesses (delta : U64) : List (Access LatVal) :=
  [.rmw fun val => { val with totalNs := val.totalNs + delta },
    .rmw fun val => { val with count := val.count + 1 },
    .testStore [fun val => decide (clampU32 delta > val.maxNs)]
      fun val => { val with maxNs := clampU32 delta }]

/-- `handle_sched_switch`: two `__sync_fetch_and_add`s. -/
def offcpuAccesses (delta : U64) : List (Access OffcpuVal) :=
  [.rmw fun val => { val with totalNs := val.totalNs + delta },
    .rmw fun val => { val with count := val.count + 1 }]

/-- `add_tx`, `add_rx` and `handle_tcp_recvmsg_exit`. -/
def sockioAccesses : Sockio.Sample → List (Access SockioVal)
  | .tx size => [.rmw fun val => { val with txBytes := val.txBytes + size }]
  | .rx size => [.rmw fun val => { val with rxBytes := val.rxBytes + size }]
  | .recvWait delta =>
    [.rmw fun val => { val with recvWaitNs := val.recvWaitNs + delta },
      .rmw fun val => { val with recvCount := val.recvCount + 1 },
      .testStore [fun val => decide (clampU32 delta > val.maxRecvNs)]
        fun val => { val with maxRecvNs := clampU32 delta }]

/-- `handle_set_state`: two adds, the clamped max, then two plain stores. -/
def connlatAccesses (x : Tcpconnlat.Sample) : List (Access ConnlatVal) :=
  [.rmw fun val => { val with totalNs := val.totalNs + x.delta },
    .rmw fun val => { val with count := val.count + 1 },
    .testStore [fun val => decide (clampU32 x.delta > val.maxNs)]
      (fun val => { val with maxNs := clampU32 x.delta }),
    .rmw fun val => { val with lastPid := x.pid },
    .rmw fun val => { val with daddr := x.daddr }]

/-- `handle_block_rq_complete`: three adds, the slot's among them, then the max. -/
def iolatAccesses (x : BlockIo.Sample) : List (Access IolatVal) :=
  let slot := slotIndex (log2Slot (x.delta / 1000))
  [.rmw fun val => { val with totalNs := val.totalNs + x.delta },
    .rmw fun val => { val with count := val.count + 1 },
    .rmw fun val => { val with slots := Function.update val.slots slot (val.slots slot + 1) },
    .testStore [fun val => decide (x.delta > val.maxNs)] fun val => { val with maxNs := x.delta }]

/-- A pure counter: one `__sync_fetch_and_add`. -/
def countAccesses (_ : Unit) : List (Access CountVal) :=
  [.rmw fun val => { val with count := val.count + 1 }]

/-- `handle_writeback_wait`: two `__sync_fetch_and_add`s. -/
def wbAccesses (nrPages : U64) : List (Access WbVal) :=
  [.rmw fun val => { val with count := val.count + 1 },
    .rmw fun val => { val with totalPages := val.totalPages + nrPages }]

/-- `handle_swap_readpage` and `handle_swap_writepage`. -/
def swapAccesses : SwapDir → List (Access SwapVal)
  | .read => [.rmw fun val => { val with readPages := val.readPages + 1 }]
  | .write => [.rmw fun val => { val with writePages := val.writePages + 1 }]

/-- `handle_tcp_send_reset`: the count, then two plain stores. -/
def resetAccesses (x : U32 × U16) : List (Access ResetVal) :=
  [.rmw fun val => { val with count := val.count + 1 },
    .rmw fun val => { val with lastDaddr := x.1 },
    .rmw fun val => { val with lastDport := x.2 }]

/-- `handle_tcp_retransmit`: the count, then three plain stores. -/
def retransAccesses (e : Tcpretrans.Event) : List (Access RetransVal) :=
  [.rmw fun val => { val with count := val.count + 1 },
    .rmw fun val => { val with lastSport := e.sport },
    .rmw fun val => { val with lastDport := e.dport },
    .rmw fun val => { val with lastDaddr := e.daddr }]

/-- `add_bytes`: two `__sync_fetch_and_add`s. -/
def netAccesses (x : U64 × U64) : List (Access NetVal) :=
  [.rmw fun val => { val with txBytes := val.txBytes + x.1 },
    .rmw fun val => { val with rxBytes := val.rxBytes + x.2 }]

/-- `handle_tcp_rcv_established`: two adds, the min (whose `||` loads `min_us` twice), the
max, then a plain store. -/
def rttAccesses (x : RttSample) : List (Access RttVal) :=
  [.rmw fun val => { val with sumUs := val.sumUs + x.srtt.setWidth 64 },
    .rmw fun val => { val with count := val.count + 1 },
    .testStore [fun val => decide (x.srtt < val.minUs), fun val => decide (val.minUs = 0)]
      (fun val => { val with minUs := x.srtt }),
    .testStore [fun val => decide (x.srtt > val.maxUs)] (fun val => { val with maxUs := x.srtt }),
    .rmw fun val => { val with lastPid := x.pid }]

/-- `handle_sys_enter_ptrace`: the count, then three plain stores. -/
def ptraceAccesses (x : PtraceSample) : List (Access PtraceVal) :=
  [.rmw fun val => { val with count := val.count + 1 },
    .rmw fun val => { val with ts := x.ts },
    .rmw fun val => { val with request := x.request },
    .rmw fun val => { val with tracerComm := x.comm }]

/-- `handle_do_init_module`: the count, then the time. -/
def modAccesses (x : ModSample) : List (Access ModVal) :=
  [.rmw fun val => { val with count := val.count + 1 },
    .rmw fun val => { val with ts := x.ts }]

/-- `handle_sched_process_exec`: the count, then five plain stores, the filename read into the
buffer in place. -/
def execAccesses (e : Execsnoop.Event) : List (Access ExecVal) :=
  [.rmw fun val => { val with count := val.count + 1 },
    .rmw fun val => { val with ts := e.now },
    .rmw fun val => { val with ppid := e.ppid },
    .rmw fun val => { val with uid := e.uidGid.setWidth 32 },
    .rmw fun val => { val with comm := e.comm },
    .rmw fun val => { val with filename := readStrInto val.filename e.filename }]

/-! ## Run alone, the accesses are the merge branch -/

/-- The accesses of `pgfault.c`, run one after another, are its merge branch. -/
theorem pgfaultMerge_eq_seqApply (fault : U64 × Bool) (val : PgfaultVal) :
    pgfaultMerge fault val = seqApply (pgfaultAccesses fault) val := by
  cases h : fault.2 <;> simp [pgfaultMerge, pgfaultAccesses, seqApply, Access.apply, h]

/-- The accesses of `runqlat.c` and `syscalldissect.c`, run one after another, are their merge
branch. -/
theorem latMerge_eq_seqApply (delta : U64) (val : LatVal) :
    latMerge delta val = seqApply (latAccesses delta) val := by
  simp only [latMerge, latAccesses, seqApply, List.foldl, Access.apply, List.any_cons,
    List.any_nil, Bool.or_false, decide_eq_true_eq]
  split_ifs <;> rfl

/-- The accesses of `sockio.c`, run one after another, are its merge branch. -/
theorem sockioMerge_eq_seqApply (x : Sockio.Sample) (val : SockioVal) :
    Sockio.merge x val = seqApply (sockioAccesses x) val := by
  cases x with
  | recvWait delta =>
    simp only [Sockio.merge, sockioAccesses, seqApply, List.foldl, Access.apply, List.any_cons,
      List.any_nil, Bool.or_false, decide_eq_true_eq]
    split_ifs <;> rfl
  | _ => rfl

/-- The accesses of `tcpconnlat.c`, run one after another, are its merge branch. -/
theorem connlatMerge_eq_seqApply (x : Tcpconnlat.Sample) (val : ConnlatVal) :
    Tcpconnlat.merge x val = seqApply (connlatAccesses x) val := by
  simp only [Tcpconnlat.merge, connlatAccesses, seqApply, List.foldl, Access.apply, List.any_cons,
    List.any_nil, Bool.or_false, decide_eq_true_eq]
  split_ifs <;> rfl

/-- The accesses of `iolatency.c`, run one after another, are its merge branch. -/
theorem iolatMerge_eq_seqApply (x : BlockIo.Sample) (val : IolatVal) :
    BlockIo.merge x val = seqApply (iolatAccesses x) val := by
  simp only [BlockIo.merge, iolatAccesses, seqApply, List.foldl, Access.apply, List.any_cons,
    List.any_nil, Bool.or_false, decide_eq_true_eq]
  split_ifs <;> rfl

/-- The accesses of `swapevict.c`, run one after another, are its merge branch. -/
theorem swapMerge_eq_seqApply (d : SwapDir) (val : SwapVal) :
    Swapevict.merge d val = seqApply (swapAccesses d) val := by
  cases d <;> rfl

/-- The accesses of `tcprtt.c`, run one after another, are its merge branch. -/
theorem rttMerge_eq_seqApply (x : RttSample) (val : RttVal) :
    Tcprtt.merge x val = seqApply (rttAccesses x) val := by
  simp only [Tcprtt.merge, rttAccesses, seqApply, List.foldl, Access.apply, List.any_cons,
    List.any_nil, Bool.or_false, Bool.or_eq_true, decide_eq_true_eq]
  split_ifs <;> rfl

/-! ## Each access treats the fields as the rules fold them -/

/-- Each sample lands in exactly one of the 16 slots. -/
theorem sum_slot_indicator (s : Fin 16) :
    ((List.finRange 16).map fun b => if s = b then 1 else 0).sum = 1 := by
  revert s
  decide

/-- Over any samples, the slots' counts add up to the number of samples. -/
theorem sum_slot_counts (S : List BlockIo.Sample) :
    ((List.finRange 16).map fun b =>
      (S.map fun x => if slotIndex (log2Slot (x.delta / 1000)) = b then 1 else 0).sum).sum =
      S.length := by
  induction S with
  | nil => simp
  | cons x S ih =>
    simp only [List.map_cons, List.sum_cons, List.sum_map_add, sum_slot_indicator, ih,
      List.length_cons]
    omega

/-- Reducing each term first does not change a sum's residue. -/
theorem sum_map_mod {α : Type} (l : List α) (g : α → Nat) (m : Nat) :
    (l.map fun b => g b % m).sum % m = (l.map g).sum % m := by
  induction l with
  | nil => rfl
  | cons b l ih => simp only [List.map_cons, List.sum_cons]; rw [Nat.add_mod, ih, Nat.mod_mod, ← Nat.add_mod]

/-- Over every sequential run of `iolatency.c`, full tables included, each record's 16 slots add
up to its `count`: both count the one final segment of samples the record summarizes. -/
theorem iolat_slots_sum_to_count_every_run (es : List Iolatency.Event) (k : U32) (r : IolatVal)
    (hr : (iolatency.run Iolatency.init es).iolatHist.lookupElem k = some r) :
    ((List.finRange 16).map fun b => (r.slots b).toNat).sum % 2 ^ 32 = r.count.toNat := by
  obtain ⟨T, -, -, hT⟩ := sinceInsertLaw iolatency.toAccumProgram Iolatency.init
    (BpfMap.lookupElem_empty _) iolatRules_respected es k r hr
  have hslots : ((List.finRange 16).map fun b => (r.slots b).toNat) = (List.finRange 16).map
      fun b => (T.map fun x => if slotIndex (log2Slot (x.delta / 1000)) = b then 1 else 0).sum % 2 ^ 32 :=
    List.map_congr_left fun b _ =>
      hT _ (List.mem_append_right _ (List.mem_map.mpr ⟨b, List.mem_finRange b, rfl⟩))
  have hcount : r.count.toNat = (T.map fun _ => 1).sum % 2 ^ 32 :=
    hT (countRule 32 (·.count.toNat)) (by simp [iolatRules])
  rw [hslots, sum_map_mod, sum_slot_counts, hcount]
  simp

/-- Process 100 issues one request on device 8 at 1000 ns, completed at 5000 ns: its record
exists, and its one sample sits in one slot. -/
theorem iolat_one_request_in_one_slot :
    ∃ r, (iolatency.run Iolatency.init
        [.blockRqIssue 8 100 0x0000006400000064 1000 0, .blockRqComplete 8 100 5000 0]).iolatHist.lookupElem
          100 = some r ∧
      ((List.finRange 16).map fun b => (r.slots b).toNat).sum % 2 ^ 32 = r.count.toNat :=
  ⟨_, rfl, iolat_slots_sum_to_count_every_run
    [.blockRqIssue 8 100 0x0000006400000064 1000 0, .blockRqComplete 8 100 5000 0] 100 _ rfl⟩

/-! ## Every program, every interleaving -/

/-- Latencies 5 and 3 load `max_ns` before either stores it: the record keeps 3. -/
example : (sysRun latAccesses latNew (Sys.init 10240 [((1 : U32), (1 : U64)), (1, 5), (1, 3)])
    [0, 0, 1, 2, 1, 1, 1, 2, 2, 2, 1, 2, 1, 2]).table.lookupElem 1 = some ⟨9, 3, 3⟩ := by
  decide

/-! ## One invocation at a time -/

/-- Every program's insert-or-merge code as atomic accesses, run one invocation at a time over
the samples of a sequential run, leaves a table no helper tells apart from the one that run
leaves: the sequential model is the atomic-step one at the schedules that never interleave. -/
theorem serial_upserts_are_sequential_runs :
    SerialLaw directReclaim.toAccumProgram reclaimAccesses DirectReclaim.init ∧
    SerialLaw lockwait.toAccumProgram lockAccesses Lockwait.init ∧
    SerialLaw pgfault.toAccumProgram pgfaultAccesses Pgfault.init ∧
    SerialLaw runqlat.toAccumProgram latAccesses Runqlat.init ∧
    SerialLaw syscallDissect.toAccumProgram latAccesses SyscallDissect.init ∧
    SerialLaw offcpu.toAccumProgram offcpuAccesses Offcpu.init ∧
    SerialLaw sockio sockioAccesses Sockio.init ∧
    SerialLaw tcpconnlat.toAccumProgram connlatAccesses Tcpconnlat.init ∧
    SerialLaw iolatency.toAccumProgram iolatAccesses Iolatency.init ∧
    SerialLaw cgthrottle countAccesses Cgthrottle.init ∧
    SerialLaw kfreeskb countAccesses Kfreeskb.init ∧
    SerialLaw sockstate countAccesses Sockstate.init ∧
    SerialLaw wbstall wbAccesses Wbstall.init ∧
    SerialLaw swapevict swapAccesses Swapevict.init ∧
    SerialLaw tcpreset resetAccesses Tcpreset.init ∧
    SerialLaw tcpretrans retransAccesses Tcpretrans.init ∧
    SerialLaw netthroughput netAccesses Netthroughput.init ∧
    SerialLaw tcprtt rttAccesses Tcprtt.init ∧
    SerialLaw ptracedetect ptraceAccesses Ptracedetect.init ∧
    SerialLaw modload modAccesses Modload.init ∧
    SerialLaw execsnoop execAccesses Execsnoop.init :=
  ⟨serialLaw (fun _ _ => rfl) _ (BpfMap.lookupElem_empty _),
    serialLaw (fun _ _ => rfl) _ (BpfMap.lookupElem_empty _),
    serialLaw pgfaultMerge_eq_seqApply _ (BpfMap.lookupElem_empty _),
    serialLaw latMerge_eq_seqApply _ (BpfMap.lookupElem_empty _),
    serialLaw latMerge_eq_seqApply _ (BpfMap.lookupElem_empty _),
    serialLaw (fun _ _ => rfl) _ (BpfMap.lookupElem_empty _),
    serialLaw sockioMerge_eq_seqApply _ (BpfMap.lookupElem_empty _),
    serialLaw connlatMerge_eq_seqApply _ (BpfMap.lookupElem_empty _),
    serialLaw iolatMerge_eq_seqApply _ (BpfMap.lookupElem_empty _),
    serialLaw (fun _ _ => rfl) _ (BpfMap.lookupElem_empty _),
    serialLaw (fun _ _ => rfl) _ (BpfMap.lookupElem_empty _),
    serialLaw (fun _ _ => rfl) _ (BpfMap.lookupElem_empty _),
    serialLaw (fun _ _ => rfl) _ (BpfMap.lookupElem_empty _),
    serialLaw swapMerge_eq_seqApply _ (BpfMap.lookupElem_empty _),
    serialLaw (fun _ _ => rfl) _ (BpfMap.lookupElem_empty _),
    serialLaw (fun _ _ => rfl) _ (BpfMap.lookupElem_empty _),
    serialLaw (fun _ _ => rfl) _ (BpfMap.lookupElem_empty _),
    serialLaw rttMerge_eq_seqApply _ (BpfMap.lookupElem_empty _),
    serialLaw (fun _ _ => rfl) _ (BpfMap.lookupElem_empty _),
    serialLaw (fun _ _ => rfl) _ (BpfMap.lookupElem_empty _),
    serialLaw (fun _ _ => rfl) _ (BpfMap.lookupElem_empty _)⟩

end XtopEbpf.AtomicRuns
