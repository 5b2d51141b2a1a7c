import XtopEbpf.Watchdog
import XtopEbpf.Tcp
import XtopEbpf.BlockIo

/-!
# Runs of the latency pairs

Every latency handler pair of the collector meets the pairing law from the
state the loader creates: over every run with positive, non-decreasing clock
readings in which no begin is refused for lack of room, its pairing table
holds exactly the entries of the latest begins not yet followed by an end on
their key, and each end that finds an entry hands exactly that entry, once,
to the rest of the handler.
-/

namespace XtopEbpf.PairingRuns

open Runtime Accumulate Pairing Watchdog Tcp BlockIo

/-- The nine latency pairs, each from its initial maps: last begin wins, and every end that
finds an entry yields one completion with an exact duration. -/
theorem pairing_tables_follow_latest_begin :
    directReclaim.PairingLaw DirectReclaim.init ∧ lockwait.PairingLaw Lockwait.init ∧
      pgfault.PairingLaw Pgfault.init ∧ runqlat.PairingLaw Runqlat.init ∧
      syscallDissect.PairingLaw SyscallDissect.init ∧ sockioRecv.PairingLaw Sockio.init ∧
      iolatency.PairingLaw Iolatency.init ∧ tcpconnlat.PairingLaw Tcpconnlat.init ∧
      offcpu.PairingLaw Offcpu.init :=
  ⟨directReclaim.pairingLaw _ (BpfMap.lookupElem_empty _), lockwait.pairingLaw _ (BpfMap.lookupElem_empty _),
    pgfault.pairingLaw _ (BpfMap.lookupElem_empty _), runqlat.pairingLaw _ (BpfMap.lookupElem_empty _),
    syscallDissect.pairingLaw _ (BpfMap.lookupElem_empty _),
    sockioRecv.pairingLaw _ (BpfMap.lookupElem_empty _), iolatency.pairingLaw _ (BpfMap.lookupElem_empty _),
    tcpconnlat.pairingLaw _ (BpfMap.lookupElem_empty _), offcpu.pairingLaw _ (BpfMap.lookupElem_empty _)⟩

/-- Two reclaim begins of pid 7 and no end: the run meets the law's hypotheses, and the entry
left pending is the second begin's. -/
theorem reclaim_second_begin_pending :
    directReclaim.TimesOk [.reclaimBegin 0x700000007 1, .reclaimBegin 0x700000007 2] ∧
      Admits directReclaim.live (directReclaim.start DirectReclaim.init)
        (directReclaim.opsOf [.reclaimBegin 0x700000007 1, .reclaimBegin 0x700000007 2]) ∧
      (directReclaim.start (directReclaim.run DirectReclaim.init
        [.reclaimBegin 0x700000007 1, .reclaimBegin 0x700000007 2])).lookupElem 7 = some 2 := by
  have hts : directReclaim.TimesOk [.reclaimBegin 0x700000007 1, .reclaimBegin 0x700000007 2] := by
    decide
  have hadm : Admits directReclaim.live (directReclaim.start DirectReclaim.init)
      (directReclaim.opsOf [.reclaimBegin 0x700000007 1, .reclaimBegin 0x700000007 2]) := by
    decide
  exact ⟨hts, hadm, by rw [(pairing_tables_follow_latest_begin.1 _ hts hadm).1]; decide⟩

/-- The nine latency pairs, each from its initial maps, over every run, full tables and clock
readings whatever they are: no begin's entry reaches the code after the delete twice. -/
theorem pairing_entries_consumed_once :
    directReclaim.ConsumedOnce DirectReclaim.init ∧ lockwait.ConsumedOnce Lockwait.init ∧
      pgfault.ConsumedOnce Pgfault.init ∧ runqlat.ConsumedOnce Runqlat.init ∧
      syscallDissect.ConsumedOnce SyscallDissect.init ∧ sockioRecv.ConsumedOnce Sockio.init ∧
      iolatency.ConsumedOnce Iolatency.init ∧ tcpconnlat.ConsumedOnce Tcpconnlat.init ∧
      offcpu.ConsumedOnce Offcpu.init :=
  ⟨directReclaim.consumedOnce _ (BpfMap.lookupElem_empty _),
    lockwait.consumedOnce _ (BpfMap.lookupElem_empty _),
    pgfault.consumedOnce _ (BpfMap.lookupElem_empty _), runqlat.consumedOnce _ (BpfMap.lookupElem_empty _),
    syscallDissect.consumedOnce _ (BpfMap.lookupElem_empty _),
    sockioRecv.consumedOnce _ (BpfMap.lookupElem_empty _),
    iolatency.consumedOnce _ (BpfMap.lookupElem_empty _),
    tcpconnlat.consumedOnce _ (BpfMap.lookupElem_empty _), offcpu.consumedOnce _ (BpfMap.lookupElem_empty _)⟩

/-! ## Threads of one process

Six of the pairs key their pairing table by process id, so every thread of a
process shares one entry. -/

/-- The ops of an invocation, each tagged with the thread id `(__u32)pid_tgid` that ran it. -/
def byThread {K V I : Type} (pidTgid : U64) (ops : List (PairOp K V I)) : List (U32 × PairOp K V I) :=
  ops.map ((tidOf pidTgid, ·))

/-- Dropping the tags gives the ops back. -/
theorem map_snd_byThread {K V I : Type} (pidTgid : U64) (ops : List (PairOp K V I)) :
    (byThread pidTgid ops).map Prod.snd = ops := by
  simp [byThread, List.map_map, Function.comp_def]

/-- The calling thread of a `directreclaim.c` invocation. -/
def reclaimCaller : DirectReclaimEvent → U64
  | .reclaimBegin p _ | .reclaimEnd p _ => p

/-- The calling thread of a `lockwait.c` invocation. -/
def futexCaller : LockwaitEvent → U64
  | .futexEnter _ p _ | .futexExit p _ => p

/-- The calling thread of a `pgfault.c` invocation. -/
def faultCaller : PgfaultEvent → U64
  | .faultEnter p _ | .faultExit p _ _ => p

/-- The calling thread of a `syscalldissect.c` invocation. -/
def syscallCaller : SyscallEvent → U64
  | .sysEnter p _ | .sysExit p _ _ => p

/-- The calling thread of a `tcp_recvmsg` probe. -/
def recvCaller : Sockio.RecvEvent → U64
  | .recvEnter p _ _ | .recvExit p _ => p

/-- A switch's ops tagged with their threads: the switch-out with `prev`, the switch-in with
`next`. -/
def switchThreads : OffcpuEvent → List (U32 × PairOp U32 U64 Unit)
  | .schedSwitch prev next now =>
    (switchOutOps prev now).map ((prev.pid, ·)) ++ (switchInOps next now).map ((next.pid, ·))

/-- Two threads of process 100 in `syscalldissect.c`: thread 101 enters at 1 and thread 102 at
2; 101 exits syscall 0 at 5 and 102 exits syscall 1 at 9. The exit of 101 pairs with 102's entry
and records 3 instead of its own 4, and 102's completed syscall is lost. -/
theorem syscall_threads_cross_pair :
    (syscallDissect.run SyscallDissect.init
        [.sysEnter 0x6400000065 1, .sysEnter 0x6400000066 2, .sysExit 0x6400000065 5 0,
          .sysExit 0x6400000066 9 1]).scAccum.lookupElem ⟨100, 0⟩ = some ⟨3, 1, 3⟩ ∧
      (syscallDissect.run SyscallDissect.init
        [.sysEnter 0x6400000065 1, .sysEnter 0x6400000066 2, .sysExit 0x6400000065 5 0,
          .sysExit 0x6400000066 9 1]).scAccum.lookupElem ⟨100, 1⟩ = none := by
  decide

/-- The six process-keyed pairs: when no thread's begin or end lands while another thread of the
same process has a begin pending, every merged sample is the ending thread's own operation, with
its own context, and every completed operation reaches the tail. -/
theorem pid_keyed_pairs_exact_without_overlap :
    directReclaim.ThreadLaw DirectReclaim.init (fun e => byThread (reclaimCaller e) (directReclaim.ops e)) ∧
      lockwait.ThreadLaw Lockwait.init (fun e => byThread (futexCaller e) (lockwait.ops e)) ∧
      pgfault.ThreadLaw Pgfault.init (fun e => byThread (faultCaller e) (pgfault.ops e)) ∧
      syscallDissect.ThreadLaw SyscallDissect.init
        (fun e => byThread (syscallCaller e) (syscallDissect.ops e)) ∧
      sockioRecv.ThreadLaw Sockio.init (fun e => byThread (recvCaller e) (sockioRecv.ops e)) ∧
      offcpu.ThreadLaw Offcpu.init switchThreads :=
  ⟨directReclaim.threadLaw _ (BpfMap.lookupElem_empty _) _ fun _ => map_snd_byThread _ _,
    lockwait.threadLaw _ (BpfMap.lookupElem_empty _) _ fun _ => map_snd_byThread _ _,
    pgfault.threadLaw _ (BpfMap.lookupElem_empty _) _ fun _ => map_snd_byThread _ _,
    syscallDissect.threadLaw _ (BpfMap.lookupElem_empty _) _ fun _ => map_snd_byThread _ _,
    sockioRecv.threadLaw _ (BpfMap.lookupElem_empty _) _ fun _ => map_snd_byThread _ _,
    offcpu.threadLaw _ (BpfMap.lookupElem_empty _) _ fun e => by
      cases e; simp [switchThreads, offcpu, List.map_map, Function.comp_def]⟩

/-- Threads 101 and 102 of process 100 each make one syscall, one after the other. -/
def syscallsInTurn : List SyscallEvent :=
  [.sysEnter 0x6400000065 1, .sysExit 0x6400000065 5 0, .sysEnter 0x6400000066 6,
    .sysExit 0x6400000066 9 1]

/-- The two threads of one process do not overlap, so each exit merges its own thread's
syscall. -/
theorem syscall_threads_in_turn_exact :
    (syscallDissect.TimesOk syscallsInTurn ∧
      Admits syscallDissect.live (syscallDissect.start SyscallDissect.init)
        (syscallDissect.opsOf syscallsInTurn) ∧
      NoOverlapAfter [] (syscallsInTurn.flatMap fun e => byThread (syscallCaller e) (syscallDissect.ops e))) ∧
    syscallDissect.accum (syscallDissect.run SyscallDissect.init syscallsInTurn) =
      ((matchedOwnAfter [] (syscallsInTurn.flatMap fun e =>
          byThread (syscallCaller e) (syscallDissect.ops e))).filterMap syscallDissect.tail).foldl
        (upsertSample syscallDissect.merge syscallDissect.new)
        (syscallDissect.accum SyscallDissect.init) :=
  have ht : syscallDissect.TimesOk syscallsInTurn := by decide
  have ha : Admits syscallDissect.live (syscallDissect.start SyscallDissect.init)
      (syscallDissect.opsOf syscallsInTurn) := by decide
  have hn : NoOverlapAfter []
      (syscallsInTurn.flatMap fun e => byThread (syscallCaller e) (syscallDissect.ops e)) := by
    decide
  ⟨⟨ht, ha, hn⟩, pid_keyed_pairs_exact_without_overlap.2.2.2.1 syscallsInTurn ht ha hn⟩

/-! ## `runqlat.c` keys -/

/-- Thread 101 of process 100 is woken at 1 and switched in at 5: the wakeup is stored under the
thread id 101, the switch-in looks up the process id 100, so the entry stays and no latency is
recorded. -/
theorem runqlat_thread_wakeup_unconsumed :
    (runqlat.run Runqlat.init [.schedWakeup 101 1, .schedSwitch ⟨101, 100, 0⟩ 5]).rqStart.lookupElem 101
        = some 1 ∧
      (runqlat.run Runqlat.init
        [.schedWakeup 101 1, .schedSwitch ⟨101, 100, 0⟩ 5]).rqlatAccum.lookupElem 100 = none := by
  decide

/-! ## Entries of exited tasks -/

/-- Process `n`'s main thread enters its last syscall, `exit_group`, at time 1; no `sys_exit`
follows. -/
def exitGroupEnter (n : Nat) : SyscallEvent := .sysEnter (BitVec.ofNat 64 (n * 2^32 + n)) 1

/-- Processes 1 to `n` each enter `exit_group` and die. -/
def exitGroups (n : Nat) : List SyscallEvent := (List.range n).map fun i => exitGroupEnter (i + 1)

/-- The process id of process `n`'s main thread is `n`. -/
theorem tgidOf_mainThread {n : Nat} (h : n < 2^32) :
    tgidOf (BitVec.ofNat 64 (n * 2^32 + n)) = BitVec.ofNat 32 n := by
  apply BitVec.eq_of_toNat_eq
  rw [tgidOf_toNat, BitVec.toNat_ofNat, BitVec.toNat_ofNat,
    Nat.mod_eq_of_lt (by omega : n * 2^32 + n < 2^64), Nat.mod_eq_of_lt h]
  omega

/-- `sc_start` keeps the loader's capacity over every run. -/
theorem maxEntries_scStart_run (es : List SyscallEvent) :
    (syscallDissect.run SyscallDissect.init es).scStart.maxEntries = 10240 :=
  syscallDissect.maxEntries_start_run _ es

/-- A `sys_enter` of a process with no slot in a full `sc_start` leaves the table as it was. -/
theorem scStart_sysEnter_of_not_hasRoom (s : SyscallDissect) (pidTgid now : U64)
    (h : ¬ s.scStart.HasRoom (tgidOf pidTgid)) :
    (syscallDissect.step s (.sysEnter pidTgid now)).scStart = s.scStart := by
  show recordStart _ _ _ = _
  rw [recordStart]
  split_ifs
  exacts [rfl, (s.scStart.updateElem_of_not_hasRoom _ _ _ h).2]

/-- After the first `n ≤ 10240` exits, `sc_start` holds exactly pids 1 to `n`. -/
theorem scStart_exitGroups (n : Nat) (hn : n ≤ 10240) :
    (syscallDissect.run SyscallDissect.init (exitGroups n)).scStart.size = n ∧
      ∀ k : U32, (syscallDissect.run SyscallDissect.init (exitGroups n)).scStart.lookupElem k =
        if 0 < k.toNat ∧ k.toNat ≤ n then some 1 else none := by
  induction n with
  | zero =>
    refine ⟨rfl, fun k => ?_⟩
    rw [if_neg (by omega)]
    exact BpfMap.lookupElem_empty _ _
  | succ n ih =>
    obtain ⟨hsize, hlook⟩ := ih (by omega)
    set s := syscallDissect.run SyscallDissect.init (exitGroups n)
    have hrun : syscallDissect.run SyscallDissect.init (exitGroups (n + 1)) =
        syscallDissect.step s (exitGroupEnter (n + 1)) := by
      simp [s, exitGroups, List.range_succ, LatencyProgram.run]
    have hcap : s.scStart.maxEntries = 10240 := maxEntries_scStart_run _
    have hlt : (n + 1) % 2^32 = n + 1 := Nat.mod_eq_of_lt (by omega)
    have hne : BitVec.ofNat 32 (n + 1) ≠ 0 := by
      intro h
      have := congrArg BitVec.toNat h
      simp only [BitVec.toNat_ofNat, hlt] at this
      simp at this
    have hroom : s.scStart.HasRoom (BitVec.ofNat 32 (n + 1)) := .inr (by rw [hsize, hcap]; omega)
    have habs : BitVec.ofNat 32 (n + 1) ∉ s.scStart.elems := by
      rw [BpfMap.mem_iff_lookupElem, hlook, BitVec.toNat_ofNat, hlt]
      simp
    have hstep : (syscallDissect.step s (exitGroupEnter (n + 1))).scStart =
        s.scStart.put (BitVec.ofNat 32 (n + 1)) 1 hroom := by
      show recordStart _ _ _ = _
      rw [tgidOf_mainThread (by omega), recordStart, if_neg hne, BpfMap.updateElem_any _ _ _ hroom]
    rw [hrun, hstep]
    refine ⟨by rw [BpfMap.size_put_of_not_mem _ _ _ _ habs, hsize], fun k => ?_⟩
    rw [BpfMap.lookupElem_put, hlook]
    by_cases hk : k = BitVec.ofNat 32 (n + 1)
    · subst hk
      rw [if_pos rfl, BitVec.toNat_ofNat, hlt, if_pos (by omega)]
    · have : k.toNat ≠ n + 1 := fun h => hk (BitVec.eq_of_toNat_eq (by rw [h, BitVec.toNat_ofNat, hlt]))
      simp only [hk, if_false]
      split_ifs <;> first | rfl | omega

/-- Processes 1 to 10240 each enter `exit_group` and die, leaving their `sc_start` entries; the
table is full, and the first syscall entry of the live process 10241, with no operation of a
live thread in flight, is not recorded. -/
theorem sc_start_full_after_exit_groups :
    (syscallDissect.run SyscallDissect.init (exitGroups 10240)).scStart.size = 10240 ∧
      (syscallDissect.step (syscallDissect.run SyscallDissect.init (exitGroups 10240))
        (.sysEnter (BitVec.ofNat 64 (10241 * 2^32 + 10241)) 2)).scStart.lookupElem 10241 = none := by
  obtain ⟨hsize, hlook⟩ := scStart_exitGroups 10240 le_rfl
  have hcap := maxEntries_scStart_run (exitGroups 10240)
  have hfull : ¬ (syscallDissect.run SyscallDissect.init (exitGroups 10240)).scStart.HasRoom
      (tgidOf (BitVec.ofNat 64 (10241 * 2^32 + 10241))) := by
    rw [tgidOf_mainThread (by omega)]
    rintro (h | h)
    · exact BpfMap.mem_iff_lookupElem.mp h (by rw [hlook]; decide)
    · unfold BpfMap.size at hsize h
      omega
  refine ⟨hsize, ?_⟩
  rw [scStart_sysEnter_of_not_hasRoom _ _ _ hfull, hlook]
  decide

/-- Every latency pair keeps an entry until an op lands on its key: an entry whose task never
runs another begin or end on that key stays for the table's lifetime, and once such entries fill
the table every begin on a new key is refused. -/
theorem pairing_entries_leave_only_by_their_key :
    directReclaim.EntriesPersist ∧ lockwait.EntriesPersist ∧ pgfault.EntriesPersist ∧
      runqlat.EntriesPersist ∧ syscallDissect.EntriesPersist ∧ sockioRecv.EntriesPersist ∧
      iolatency.EntriesPersist ∧ tcpconnlat.EntriesPersist ∧ offcpu.EntriesPersist :=
  ⟨directReclaim.entriesPersist, lockwait.entriesPersist, pgfault.entriesPersist,
    runqlat.entriesPersist, syscallDissect.entriesPersist, sockioRecv.entriesPersist,
    iolatency.entriesPersist, tcpconnlat.entriesPersist, offcpu.entriesPersist⟩

/-! ## Staleness ceilings

Seven pairs skip a duration over their ceiling after the delete; `offcpu.c`
keeps only durations strictly below 30 s, so a duration of exactly 30 s is
skipped; `iolatency.c` skips only zero durations and pid 0, and
`tcpconnlat.c` keeps every duration: neither has a ceiling. -/

/-- A tail that drops durations over a ceiling keeps exactly those up to it. -/
theorem isSome_ite_ceiling {α : Type} (d ceil : U64) (a : α) :
    (if d > ceil then none else some a).isSome ↔ d.toNat ≤ ceil.toNat := by
  simp [BitVec.lt_def]

/-- Each pair's filter after the delete, over the true duration of every matched begin and end. -/
theorem ceilings_as_coded :
    directReclaim.CeilingLaw DirectReclaim.init (fun _ d => d ≤ 30000000000) ∧
      lockwait.CeilingLaw Lockwait.init (fun _ d => d ≠ 0 ∧ d ≤ 30000000000) ∧
      pgfault.CeilingLaw Pgfault.init (fun _ d => d ≤ 5000000000) ∧
      runqlat.CeilingLaw Runqlat.init (fun _ d => d ≤ 10000000000) ∧
      syscallDissect.CeilingLaw SyscallDissect.init (fun _ d => d ≤ 30000000000) ∧
      sockioRecv.CeilingLaw Sockio.init (fun _ d => d ≤ 30000000000) ∧
      offcpu.CeilingLaw Offcpu.init (fun _ d => d < 30000000000) ∧
      iolatency.CeilingLaw Iolatency.init (fun c d => d ≠ 0 ∧ c.entry.pid ≠ 0) ∧
      tcpconnlat.CeilingLaw Tcpconnlat.init (fun _ _ => True) :=
  ⟨directReclaim.ceilingLaw _ (BpfMap.lookupElem_empty _) _ fun _ => isSome_ite_ceiling _ _ _,
    lockwait.ceilingLaw _ (BpfMap.lookupElem_empty _) _ fun c => by
      unfold lockwait; dsimp only; simp [BitVec.lt_def, BitVec.toNat_eq],
    pgfault.ceilingLaw _ (BpfMap.lookupElem_empty _) _ fun _ => isSome_ite_ceiling _ _ _,
    runqlat.ceilingLaw _ (BpfMap.lookupElem_empty _) _ fun _ => isSome_ite_ceiling _ _ _,
    syscallDissect.ceilingLaw _ (BpfMap.lookupElem_empty _) _ fun _ => isSome_ite_ceiling _ _ _,
    sockioRecv.ceilingLaw _ (BpfMap.lookupElem_empty _) _ fun _ => isSome_ite_ceiling _ _ _,
    offcpu.ceilingLaw _ (BpfMap.lookupElem_empty _) _ fun c => by
      unfold offcpu; dsimp only; simp [offcpuTail, BitVec.lt_def],
    iolatency.ceilingLaw _ (BpfMap.lookupElem_empty _) _ fun c => by
      unfold iolatency; dsimp only; simp [Iolatency.tail, BitVec.toNat_eq],
    tcpconnlat.ceilingLaw _ (BpfMap.lookupElem_empty _) _ fun _ => iff_of_true rfl trivial⟩

/-- A task of pid 100 off the CPU for exactly 30 s is not counted, a 30 s direct reclaim stall
of pid 100 is, and a 31 s block request of pid 100 is counted. -/
theorem ceiling_boundary_and_missing_ceilings :
    (offcpu.run Offcpu.init [.schedSwitch ⟨100, 100, 0⟩ ⟨0, 0, 0⟩ 1,
        .schedSwitch ⟨0, 0, 0⟩ ⟨100, 100, 0⟩ 30000000001]).offcpuAccum.lookupElem 100 = none ∧
      ((directReclaim.run DirectReclaim.init [.reclaimBegin 0x6400000064 1,
        .reclaimEnd 0x6400000064 30000000001]).reclaimAccum.lookupElem 100).map (·.count) = some 1 ∧
      ((iolatency.run Iolatency.init [.blockRqIssue 8 0 0x6400000064 1 0,
        .blockRqComplete 8 0 31000000001 0]).iolatHist.lookupElem 100).map (·.count) = some 1 := by
  decide

end XtopEbpf.PairingRuns
