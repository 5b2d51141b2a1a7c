import XtopEbpf.Pairing

/-!
# The pid-keyed watchdogs

`directreclaim.c`, `lockwait.c`, `pgfault.c`, `runqlat.c` and
`syscalldissect.c` share one shape. The begin handler drops pid 0 and stores
`bpf_ktime_get_ns()` under the pid with `BPF_ANY`; the end handler drops pid 0,
looks the pid up, takes `delta = now - *tsp`, deletes the entry, applies its
own skip test and upserts `delta` into its accumulation table. `recordStart`
and `finishStart` are those two paths with each program's test, key and merge
as parameters; each handler below is them applied to its own values. Each
program is then a `LatencyProgram`: its begins and ends are pairing ops, and
what follows the delete is its tail.
-/

namespace XtopEbpf.Watchdog

open Runtime Accumulate Pairing

section Shared

variable {A R X I : Type} [DecidableEq A]

/-- `if (pid == 0) return 0; ts = bpf_ktime_get_ns(); update(&start, &pid, &ts, BPF_ANY)`. -/
def recordStart (start : BpfMap U32 U64) (pid : U32) (ts : U64) : BpfMap U32 U64 :=
  if pid = 0 then start else (start.updateElem pid ts .any).2

/-- `if (pid == 0) return 0; tsp = lookup(&start, &pid); if (!tsp) return 0;
delta = now - *tsp; delete(&start, &pid); if (skip) return 0;` then the upsert at `key`. -/
def finishStart (start : BpfMap U32 U64) (accum : BpfMap A R) (pid : U32) (now : U64)
    (skip : U64 → Bool) (key : A) (sample : U64 → X) (merge : X → R → R) (new : X → R) :
    BpfMap U32 U64 × BpfMap A R :=
  if pid = 0 then (start, accum) else
    match start.lookupElem pid with
    | none => (start, accum)
    | some tsp =>
      let delta := now - tsp
      (start.deleteElem pid,
        if skip delta then accum else upsert accum key (merge (sample delta)) (new (sample delta)))

/-- The begin as a pairing op. -/
def startOps (pid : U32) (ts : U64) : List (PairOp U32 U64 I) :=
  if pid = 0 then [] else [.begin pid ts]

/-- The end as a pairing op. -/
def finishOps (pid : U32) (now : U64) (info : I) : List (PairOp U32 U64 I) :=
  if pid = 0 then [] else [.finish pid now info]

/-- The begin path is its op. -/
theorem recordStart_eq (start : BpfMap U32 U64) (pid : U32) (ts : U64) :
    recordStart start pid ts = (pairRun (fun _ => true) start (startOps (I := I) pid ts)).1 := by
  unfold recordStart startOps
  split_ifs <;> rfl

/-- On the pairing table the end path is its op. -/
theorem finishStart_fst (start : BpfMap U32 U64) (accum : BpfMap A R) (pid : U32) (now : U64)
    (info : I) (skip : U64 → Bool) (key : A) (sample : U64 → X) (merge : X → R → R)
    (new : X → R) :
    (finishStart start accum pid now skip key sample merge new).1 =
      (pairRun (fun _ => true) start (finishOps pid now info)).1 := by
  unfold finishStart finishOps
  split_ifs
  · rfl
  · cases h : start.lookupElem pid <;> simp [pairRun, pairStep, h]

/-- On the accumulation table the end path is its completion through the tail. -/
theorem finishStart_eq (start : BpfMap U32 U64) (accum : BpfMap A R) (pid : U32) (now : U64)
    (info : I) (skip : U64 → Bool) (key : A) (sample : U64 → X) (merge : X → R → R)
    (new : X → R) (tail : Completion U32 U64 I → Option (A × X))
    (htail : ∀ v, tail ⟨pid, v, now, info⟩ = if skip (now - v) then none else some (key, sample (now - v))) :
    (finishStart start accum pid now skip key sample merge new).2 =
      ((pairRun (fun _ => true) start (finishOps pid now info)).2.filterMap tail).foldl
        (upsertSample merge new) accum := by
  unfold finishStart finishOps
  split_ifs with hpid
  · rfl
  · cases h : start.lookupElem pid with
    | none => simp [pairRun, pairYield, h]
    | some v =>
      simp only [pairRun, pairYield, h, if_true, Option.toList_some, List.append_nil,
        List.filterMap_cons, List.filterMap_nil, htail]
      split_ifs <;> rfl

end Shared

/-! ## `directreclaim.c` -/

/-- `struct reclaim_val`. -/
structure ReclaimVal where
  /-- `stall_ns`. -/
  stallNs : U64
  /-- `count`. -/
  count : U32
  deriving DecidableEq, Repr, Inhabited

/-- The maps of `directreclaim.c`. -/
structure DirectReclaim where
  /-- `reclaim_start`: pid to start time. -/
  reclaimStart : BpfMap U32 U64
  /-- `reclaim_accum`: pid to stall totals. -/
  reclaimAccum : BpfMap U32 ReclaimVal

/-- The maps as the loader creates them. -/
def DirectReclaim.init : DirectReclaim := ⟨.empty 10240, .empty 10240⟩

/-- Invocations of `directreclaim.c`, with the helper values they read. -/
inductive DirectReclaimEvent where
  /-- `mm_vmscan_direct_reclaim_begin`. -/
  | reclaimBegin (pidTgid now : U64)
  /-- `mm_vmscan_direct_reclaim_end`. -/
  | reclaimEnd (pidTgid now : U64)

/-- The merge branch of `handle_reclaim_end`. -/
def reclaimMerge (delta : U64) (val : ReclaimVal) : ReclaimVal :=
  { stallNs := val.stallNs + delta, count := val.count + 1 }

/-- The `new_val` of `handle_reclaim_end`. -/
def reclaimNew (delta : U64) : ReclaimVal := { stallNs := delta, count := 1 }

/-- `handle_reclaim_begin`. -/
def handleReclaimBegin (s : DirectReclaim) (pidTgid now : U64) : DirectReclaim :=
  { s with reclaimStart := recordStart s.reclaimStart (tgidOf pidTgid) now }

/-- `handle_reclaim_end`: stalls over 30 s are skipped. -/
def handleReclaimEnd (s : DirectReclaim) (pidTgid now : U64) : DirectReclaim :=
  let r := finishStart s.reclaimStart s.reclaimAccum (tgidOf pidTgid) now
    (fun delta => delta > 30000000000) (tgidOf pidTgid) id reclaimMerge reclaimNew
  ⟨r.1, r.2⟩

/-- One invocation. -/
def DirectReclaim.step (s : DirectReclaim) : DirectReclaimEvent → DirectReclaim
  | .reclaimBegin pidTgid now => handleReclaimBegin s pidTgid now
  | .reclaimEnd pidTgid now => handleReclaimEnd s pidTgid now

/-- `directreclaim.c` as a latency program. -/
def directReclaim : LatencyProgram DirectReclaim DirectReclaimEvent U32 U64 Unit U32 U64 ReclaimVal where
  start := DirectReclaim.reclaimStart
  accum := DirectReclaim.reclaimAccum
  step := DirectReclaim.step
  ops
    | .reclaimBegin pidTgid now => startOps (tgidOf pidTgid) now
    | .reclaimEnd pidTgid now => finishOps (tgidOf pidTgid) now ()
  live _ := true
  time
    | .reclaimBegin _ now | .reclaimEnd _ now => now
  stamp := id
  tail c := if c.now - c.entry > 30000000000 then none else some (c.key, c.now - c.entry)
  merge := reclaimMerge
  new := reclaimNew
  ops_time e op hop := by
    cases e <;> simp only [startOps, finishOps] at hop <;> split_ifs at hop <;>
      simp_all [PairOp.time]
  live_of_stamp _ _ := rfl
  step_start s e := by
    cases e with
    | reclaimBegin p t => exact recordStart_eq _ _ _
    | reclaimEnd p t => exact finishStart_fst _ _ _ _ () _ _ _ _ _
  step_accum s e := by
    cases e with
    | reclaimBegin p t =>
      simp only [DirectReclaim.step, handleReclaimBegin, startOps]
      split_ifs <;> rfl
    | reclaimEnd p t => exact finishStart_eq _ _ _ _ () _ _ _ _ _ _ fun _ => by simp

/-! ## `lockwait.c` -/

/-- `struct lock_val`. -/
structure LockVal where
  /-- `total_wait_ns`. -/
  totalWaitNs : U64
  /-- `count`. -/
  count : U32
  deriving DecidableEq, Repr, Inhabited

/-- The maps of `lockwait.c`. -/
structure Lockwait where
  /-- `futex_start`: pid to start time. -/
  futexStart : BpfMap U32 U64
  /-- `futex_accum`: pid to wait totals. -/
  futexAccum : BpfMap U32 LockVal

/-- The maps as the loader creates them. -/
def Lockwait.init : Lockwait := ⟨.empty 10240, .empty 10240⟩

/-- Invocations of `lockwait.c`. -/
inductive LockwaitEvent where
  /-- `sys_enter_futex`, with the syscall's `op` argument. -/
  | futexEnter (op pidTgid now : U64)
  /-- `sys_exit_futex`. -/
  | futexExit (pidTgid now : U64)

/-- `op & 0x7F` is `FUTEX_WAIT` (0), `FUTEX_WAIT_BITSET` (9) or `FUTEX_LOCK_PI` (6). -/
def waitsOn (op : U64) : Bool :=
  op &&& 0x7F = 0 || op &&& 0x7F = 9 || op &&& 0x7F = 6

/-- The merge branch of `handle_futex_exit`. -/
def lockMerge (delta : U64) (val : LockVal) : LockVal :=
  { totalWaitNs := val.totalWaitNs + delta, count := val.count + 1 }

/-- The `new_val` of `handle_futex_exit`. -/
def lockNew (delta : U64) : LockVal := { totalWaitNs := delta, count := 1 }

/-- `handle_futex_enter`: only waiting ops are timed. -/
def handleFutexEnter (s : Lockwait) (op pidTgid now : U64) : Lockwait :=
  if waitsOn op then { s with futexStart := recordStart s.futexStart (tgidOf pidTgid) now } else s

/-- `handle_futex_exit`: zero waits and waits over 30 s are skipped. -/
def handleFutexExit (s : Lockwait) (pidTgid now : U64) : Lockwait :=
  let r := finishStart s.futexStart s.futexAccum (tgidOf pidTgid) now
    (fun delta => delta = 0 || delta > 30000000000) (tgidOf pidTgid) id lockMerge lockNew
  ⟨r.1, r.2⟩

/-- One invocation. -/
def Lockwait.step (s : Lockwait) : LockwaitEvent → Lockwait
  | .futexEnter op pidTgid now => handleFutexEnter s op pidTgid now
  | .futexExit pidTgid now => handleFutexExit s pidTgid now

/-- `lockwait.c` as a latency program. -/
def lockwait : LatencyProgram Lockwait LockwaitEvent U32 U64 Unit U32 U64 LockVal where
  start := Lockwait.futexStart
  accum := Lockwait.futexAccum
  step := Lockwait.step
  ops
    | .futexEnter op pidTgid now => if waitsOn op then startOps (tgidOf pidTgid) now else []
    | .futexExit pidTgid now => finishOps (tgidOf pidTgid) now ()
  live _ := true
  time
    | .futexEnter _ _ now | .futexExit _ now => now
  stamp := id
  tail c := if c.now - c.entry = 0 ∨ c.now - c.entry > 30000000000 then none
    else some (c.key, c.now - c.entry)
  merge := lockMerge
  new := lockNew
  ops_time e op hop := by
    cases e <;> simp only [startOps, finishOps] at hop <;> split_ifs at hop <;>
      simp_all [PairOp.time]
  live_of_stamp _ _ := rfl
  step_start s e := by
    cases e with
    | futexEnter op p t =>
      simp only [Lockwait.step, handleFutexEnter]
      split_ifs
      · exact recordStart_eq _ _ _
      · rfl
    | futexExit p t => exact finishStart_fst _ _ _ _ () _ _ _ _ _
  step_accum s e := by
    cases e with
    | futexEnter op p t =>
      simp only [Lockwait.step, handleFutexEnter, startOps]
      split_ifs <;> rfl
    | futexExit p t => exact finishStart_eq _ _ _ _ () _ _ _ _ _ _ fun _ => by simp

/-! ## `pgfault.c` -/

/-- `struct pgfault_val`. -/
structure PgfaultVal where
  /-- `total_ns`. -/
  totalNs : U64
  /-- `count`. -/
  count : U32
  /-- `major_count`. -/
  majorCount : U32
  deriving DecidableEq, Repr, Inhabited

/-- The maps of `pgfault.c`. -/
structure Pgfault where
  /-- `pgfault_start`: pid to start time. -/
  pgfaultStart : BpfMap U32 U64
  /-- `pgfault_accum`: pid to fault totals. -/
  pgfaultAccum : BpfMap U32 PgfaultVal

/-- The maps as the loader creates them. -/
def Pgfault.init : Pgfault := ⟨.empty 10240, .empty 10240⟩

/-- Invocations of `pgfault.c`. -/
inductive PgfaultEvent where
  /-- The kprobe on `handle_mm_fault`. -/
  | faultEnter (pidTgid now : U64)
  /-- The kretprobe, with the returned `vm_fault_t`. -/
  | faultExit (pidTgid now ret : U64)

/-- `ret & VM_FAULT_MAJOR`. -/
def isMajor (ret : U64) : Bool := ret &&& 0x0004 ≠ 0

/-- The merge branch of `handle_fault_exit`, for a fault of this duration and majority. -/
def pgfaultMerge (fault : U64 × Bool) (val : PgfaultVal) : PgfaultVal :=
  { totalNs := val.totalNs + fault.1, count := val.count + 1,
    majorCount := if fault.2 then val.majorCount + 1 else val.majorCount }

/-- The `new_val` of `handle_fault_exit`. -/
def pgfaultNew (fault : U64 × Bool) : PgfaultVal :=
  { totalNs := fault.1, count := 1, majorCount := if fault.2 then 1 else 0 }

/-- `handle_fault_enter`. -/
def handleFaultEnter (s : Pgfault) (pidTgid now : U64) : Pgfault :=
  { s with pgfaultStart := recordStart s.pgfaultStart (tgidOf pidTgid) now }

/-- `handle_fault_exit`: faults over 5 s are skipped. -/
def handleFaultExit (s : Pgfault) (pidTgid now ret : U64) : Pgfault :=
  let r := finishStart s.pgfaultStart s.pgfaultAccum (tgidOf pidTgid) now
    (fun delta => delta > 5000000000) (tgidOf pidTgid) (fun delta => (delta, isMajor ret))
    pgfaultMerge pgfaultNew
  ⟨r.1, r.2⟩

/-- One invocation. -/
def Pgfault.step (s : Pgfault) : PgfaultEvent → Pgfault
  | .faultEnter pidTgid now => handleFaultEnter s pidTgid now
  | .faultExit pidTgid now ret => handleFaultExit s pidTgid now ret

/-- `pgfault.c` as a latency program. -/
def pgfault : LatencyProgram Pgfault PgfaultEvent U32 U64 U64 U32 (U64 × Bool) PgfaultVal where
  start := Pgfault.pgfaultStart
  accum := Pgfault.pgfaultAccum
  step := Pgfault.step
  ops
    | .faultEnter pidTgid now => startOps (tgidOf pidTgid) now
    | .faultExit pidTgid now ret => finishOps (tgidOf pidTgid) now ret
  live _ := true
  time
    | .faultEnter _ now | .faultExit _ now _ => now
  stamp := id
  tail c := if c.now - c.entry > 5000000000 then none
    else some (c.key, (c.now - c.entry, isMajor c.info))
  merge := pgfaultMerge
  new := pgfaultNew
  ops_time e op hop := by
    cases e <;> simp only [startOps, finishOps] at hop <;> split_ifs at hop <;>
      simp_all [PairOp.time]
  live_of_stamp _ _ := rfl
  step_start s e := by
    cases e with
    | faultEnter p t => exact recordStart_eq _ _ _
    | faultExit p t ret => exact finishStart_fst _ _ _ _ ret _ _ _ _ _
  step_accum s e := by
    cases e with
    | faultEnter p t =>
      simp only [Pgfault.step, handleFaultEnter, startOps]
      split_ifs <;> rfl
    | faultExit p t ret => exact finishStart_eq _ _ _ _ ret _ _ _ _ _ _ fun _ => by simp

/-! ## `runqlat.c` and `syscalldissect.c` -/

/-- `struct rqlat_val` and `struct sc_val`, which have one layout. -/
structure LatVal where
  /-- `total_ns`. -/
  totalNs : U64
  /-- `count`. -/
  count : U32
  /-- `max_ns`, clamped to 32 bits. -/
  maxNs : U32
  deriving DecidableEq, Repr, Inhabited

/-- The merge branch both programs run: sums, then the racy clamped max. -/
def latMerge (delta : U64) (val : LatVal) : LatVal :=
  { totalNs := val.totalNs + delta, count := val.count + 1,
    maxNs := if clampU32 delta > val.maxNs then clampU32 delta else val.maxNs }

/-- The `new_val` both programs build. -/
def latNew (delta : U64) : LatVal := { totalNs := delta, count := 1, maxNs := clampU32 delta }

/-- The maps of `runqlat.c`. -/
structure Runqlat where
  /-- `rq_start`: wakeup time, keyed as the wakeup records it. -/
  rqStart : BpfMap U32 U64
  /-- `rqlat_accum`: pid to run-queue latency totals. -/
  rqlatAccum : BpfMap U32 LatVal

/-- The maps as the loader creates them. -/
def Runqlat.init : Runqlat := ⟨.empty 10240, .empty 10240⟩

/-- Invocations of `runqlat.c`. -/
inductive RunqlatEvent where
  /-- `sched_wakeup`, with the tracepoint's `pid` field. -/
  | schedWakeup (pid : U32) (now : U64)
  /-- `sched_switch`, with the task switched in. -/
  | schedSwitch (next : Task) (now : U64)

/-- `handle_sched_wakeup`: keyed by the woken thread's id. -/
def handleSchedWakeup (s : Runqlat) (pid : U32) (now : U64) : Runqlat :=
  { s with rqStart := recordStart s.rqStart pid now }

/-- `handle_sched_switch_rqlat`: keyed by `BPF_CORE_READ(next, tgid)`; waits over 10 s are
skipped. -/
def handleSchedSwitchRqlat (s : Runqlat) (next : Task) (now : U64) : Runqlat :=
  let r := finishStart s.rqStart s.rqlatAccum next.tgid now
    (fun delta => delta > 10000000000) next.tgid id latMerge latNew
  ⟨r.1, r.2⟩

/-- One invocation. -/
def Runqlat.step (s : Runqlat) : RunqlatEvent → Runqlat
  | .schedWakeup pid now => handleSchedWakeup s pid now
  | .schedSwitch next now => handleSchedSwitchRqlat s next now

/-- `runqlat.c` as a latency program. -/
def runqlat : LatencyProgram Runqlat RunqlatEvent U32 U64 Unit U32 U64 LatVal where
  start := Runqlat.rqStart
  accum := Runqlat.rqlatAccum
  step := Runqlat.step
  ops
    | .schedWakeup pid now => startOps pid now
    | .schedSwitch next now => finishOps next.tgid now ()
  live _ := true
  time
    | .schedWakeup _ now | .schedSwitch _ now => now
  stamp := id
  tail c := if c.now - c.entry > 10000000000 then none else some (c.key, c.now - c.entry)
  merge := latMerge
  new := latNew
  ops_time e op hop := by
    cases e <;> simp only [startOps, finishOps] at hop <;> split_ifs at hop <;>
      simp_all [PairOp.time]
  live_of_stamp _ _ := rfl
  step_start s e := by
    cases e with
    | schedWakeup p t => exact recordStart_eq _ _ _
    | schedSwitch n t => exact finishStart_fst _ _ _ _ () _ _ _ _ _
  step_accum s e := by
    cases e with
    | schedWakeup p t =>
      simp only [Runqlat.step, handleSchedWakeup, startOps]
      split_ifs <;> rfl
    | schedSwitch n t => exact finishStart_eq _ _ _ _ () _ _ _ _ _ _ fun _ => by simp

/-- `struct sc_key`. -/
structure ScKey where
  /-- `pid`. -/
  pid : U32
  /-- `syscall_nr`. -/
  syscallNr : U32
  deriving DecidableEq, Repr

/-- The maps of `syscalldissect.c`. -/
structure SyscallDissect where
  /-- `sc_start`: pid to syscall entry time. -/
  scStart : BpfMap U32 U64
  /-- `sc_accum`: (pid, syscall number) to syscall time totals. -/
  scAccum : BpfMap ScKey LatVal

/-- The maps as the loader creates them. -/
def SyscallDissect.init : SyscallDissect := ⟨.empty 10240, .empty 32768⟩

/-- Invocations of `syscalldissect.c`. -/
inductive SyscallEvent where
  /-- `raw_syscalls/sys_enter`. -/
  | sysEnter (pidTgid now : U64)
  /-- `raw_syscalls/sys_exit`, with the syscall's `id`. -/
  | sysExit (pidTgid now ctxId : U64)

/-- `handle_sys_enter`. -/
def handleSysEnter (s : SyscallDissect) (pidTgid now : U64) : SyscallDissect :=
  { s with scStart := recordStart s.scStart (tgidOf pidTgid) now }

/-- `handle_sys_exit`: syscalls over 30 s are skipped; the key is the pid and `(__u32)ctx->id`. -/
def handleSysExit (s : SyscallDissect) (pidTgid now ctxId : U64) : SyscallDissect :=
  let r := finishStart s.scStart s.scAccum (tgidOf pidTgid) now
    (fun delta => delta > 30000000000) ⟨tgidOf pidTgid, ctxId.setWidth 32⟩ id latMerge latNew
  ⟨r.1, r.2⟩

/-- One invocation. -/
def SyscallDissect.step (s : SyscallDissect) : SyscallEvent → SyscallDissect
  | .sysEnter pidTgid now => handleSysEnter s pidTgid now
  | .sysExit pidTgid now ctxId => handleSysExit s pidTgid now ctxId

/-- `syscalldissect.c` as a latency program. -/
def syscallDissect : LatencyProgram SyscallDissect SyscallEvent U32 U64 U64 ScKey U64 LatVal where
  start := SyscallDissect.scStart
  accum := SyscallDissect.scAccum
  step := SyscallDissect.step
  ops
    | .sysEnter pidTgid now => startOps (tgidOf pidTgid) now
    | .sysExit pidTgid now ctxId => finishOps (tgidOf pidTgid) now ctxId
  live _ := true
  time
    | .sysEnter _ now | .sysExit _ now _ => now
  stamp v := v
  tail c := if c.now - c.entry > 30000000000 then none
    else some (⟨c.key, c.info.setWidth 32⟩, c.now - c.entry)
  merge := latMerge
  new := latNew
  ops_time e op hop := by
    cases e <;> simp only [startOps, finishOps] at hop <;> split_ifs at hop <;>
      simp_all [PairOp.time]
  live_of_stamp _ _ := rfl
  step_start s e := by
    cases e with
    | sysEnter p t => exact recordStart_eq _ _ _
    | sysExit p t i => exact finishStart_fst _ _ _ _ i _ _ _ _ _
  step_accum s e := by
    cases e with
    | sysEnter p t =>
      simp only [SyscallDissect.step, handleSysEnter, startOps]
      split_ifs <;> rfl
    | sysExit p t i => exact finishStart_eq _ _ _ _ i _ _ _ _ _ _ fun _ => by simp

/-! ## `offcpu.c`

One `sched_switch` both begins the task switched out and ends the task switched
in. Unlike the programs above, the end consumes only an entry with a positive
time, keeps the sample only below 30 s, and deletes after the test. -/

/-- `struct offcpu_val`. -/
structure OffcpuVal where
  /-- `total_ns`. -/
  totalNs : U64
  /-- `count`. -/
  count : U32
  deriving DecidableEq, Repr, Inhabited

/-- The maps of `offcpu.c`. -/
structure Offcpu where
  /-- `offcpu_start`: pid to switch-out time. -/
  offcpuStart : BpfMap U32 U64
  /-- `offcpu_accum`: pid to off-CPU totals. -/
  offcpuAccum : BpfMap U32 OffcpuVal

/-- The maps as the loader creates them. -/
def Offcpu.init : Offcpu := ⟨.empty 10240, .empty 10240⟩

/-- Invocations of `offcpu.c`: `sched_switch` with the tasks switched out and in. -/
inductive OffcpuEvent where
  | schedSwitch (prev next : Task) (now : U64)

/-- The merge branch of `handle_sched_switch`. -/
def offcpuMerge (delta : U64) (val : OffcpuVal) : OffcpuVal :=
  { totalNs := val.totalNs + delta, count := val.count + 1 }

/-- The `new_val` of `handle_sched_switch`. -/
def offcpuNew (delta : U64) : OffcpuVal := { totalNs := delta, count := 1 }

/-- The switch-out is recorded unless `prev` is pid 0 or 1 or sleeps in `TASK_INTERRUPTIBLE`. -/
def recordsSwitchOut (prev : Task) : Prop := prev.tgid > 1 ∧ prev.state &&& 0xff ≠ 1

instance (prev : Task) : Decidable (recordsSwitchOut prev) :=
  inferInstanceAs (Decidable (_ ∧ _))

/-- The switch-out half of `handle_sched_switch`. -/
def recordSwitchOut (start : BpfMap U32 U64) (prev : Task) (now : U64) : BpfMap U32 U64 :=
  if recordsSwitchOut prev then (start.updateElem prev.tgid now .any).2 else start

/-- The switch-in half of `handle_sched_switch`. -/
def finishSwitchIn (s : Offcpu) (next : Task) (now : U64) : Offcpu :=
  if next.tgid > 1 then
    match s.offcpuStart.lookupElem next.tgid with
    | some tsp =>
      if tsp > 0 then
        let delta := now - tsp
        { offcpuAccum := if delta < 30000000000 then
              upsert s.offcpuAccum next.tgid (offcpuMerge delta) (offcpuNew delta)
            else s.offcpuAccum,
          offcpuStart := s.offcpuStart.deleteElem next.tgid }
      else s
    | none => s
  else s

/-- `handle_sched_switch`: the switch-out of `prev`, then the switch-in of `next`. -/
def handleSchedSwitch (s : Offcpu) (prev next : Task) (now : U64) : Offcpu :=
  finishSwitchIn { s with offcpuStart := recordSwitchOut s.offcpuStart prev now } next now

/-- One invocation. -/
def Offcpu.step (s : Offcpu) : OffcpuEvent → Offcpu
  | .schedSwitch prev next now => handleSchedSwitch s prev next now

/-- The switch-out as pairing ops. -/
def switchOutOps (prev : Task) (now : U64) : List (PairOp U32 U64 Unit) :=
  if recordsSwitchOut prev then [.begin prev.tgid now] else []

/-- The switch-in as pairing ops. -/
def switchInOps (next : Task) (now : U64) : List (PairOp U32 U64 Unit) :=
  if next.tgid > 1 then [.finish next.tgid now ()] else []

/-- Which found entries the switch-in consumes: those with `*tsp > 0`. -/
def offcpuLive (tsp : U64) : Bool := tsp > 0

/-- What follows the switch-in's test: the sample kept below 30 s. -/
def offcpuTail (c : Completion U32 U64 Unit) : Option (U32 × U64) :=
  if c.now - c.entry < 30000000000 then some (c.key, c.now - c.entry) else none

/-- The switch-out is its op and yields nothing. -/
theorem recordSwitchOut_eq (start : BpfMap U32 U64) (prev : Task) (now : U64) :
    pairRun offcpuLive start (switchOutOps prev now) = (recordSwitchOut start prev now, []) := by
  unfold recordSwitchOut switchOutOps
  split_ifs <;> rfl

/-- On the pairing table the switch-in is its op. -/
theorem finishSwitchIn_start (s : Offcpu) (next : Task) (now : U64) :
    (finishSwitchIn s next now).offcpuStart =
      (pairRun offcpuLive s.offcpuStart (switchInOps next now)).1 := by
  unfold finishSwitchIn switchInOps
  split_ifs
  · cases h : s.offcpuStart.lookupElem next.tgid with
    | none => simp [pairRun, pairStep, h]
    | some tsp =>
      simp only [pairRun, pairStep, offcpuLive, h, decide_eq_true_eq]
      split_ifs <;> rfl
  · rfl

/-- On the accumulation table the switch-in is its completion through the tail. -/
theorem finishSwitchIn_accum (s : Offcpu) (next : Task) (now : U64) :
    (finishSwitchIn s next now).offcpuAccum =
      ((pairRun offcpuLive s.offcpuStart (switchInOps next now)).2.filterMap offcpuTail).foldl
        (upsertSample offcpuMerge offcpuNew) s.offcpuAccum := by
  unfold finishSwitchIn switchInOps
  split_ifs
  · cases h : s.offcpuStart.lookupElem next.tgid with
    | none => simp [pairRun, pairYield, h]
    | some tsp =>
      simp only [pairRun, pairYield, offcpuLive, h, decide_eq_true_eq]
      split_ifs <;> simp_all [offcpuTail, upsertSample]
  · rfl

/-- `offcpu.c` as a latency program. -/
def offcpu : LatencyProgram Offcpu OffcpuEvent U32 U64 Unit U32 U64 OffcpuVal where
  start := Offcpu.offcpuStart
  accum := Offcpu.offcpuAccum
  step := Offcpu.step
  ops | .schedSwitch prev next now => switchOutOps prev now ++ switchInOps next now
  live := offcpuLive
  time | .schedSwitch _ _ now => now
  stamp := id
  tail := offcpuTail
  merge := offcpuMerge
  new := offcpuNew
  ops_time e op hop := by
    cases e
    simp only [switchOutOps, switchInOps, List.mem_append] at hop
    split_ifs at hop <;> simp only [List.mem_singleton, List.not_mem_nil, false_or, or_false] at hop <;>
      rcases hop with rfl | rfl <;> rfl
  live_of_stamp v hv := by simpa [offcpuLive, BitVec.lt_def] using hv
  step_start s e := by
    cases e with
    | schedSwitch prev next now =>
      rw [pairRun_append, recordSwitchOut_eq]
      exact finishSwitchIn_start _ _ _
  step_accum s e := by
    cases e with
    | schedSwitch prev next now =>
      rw [pairRun_append, recordSwitchOut_eq]
      exact finishSwitchIn_accum _ _ _

end XtopEbpf.Watchdog
