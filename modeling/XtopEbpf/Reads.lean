import XtopEbpf.Descriptive

/-!
# Payload reads that fail

No handler checks what `bpf_probe_read_kernel`, `bpf_probe_read_kernel_str` or
the `BPF_CORE_READ` family return. A failed read leaves its destination zeroed,
and the invocation goes on with the zeros: it filters, keys and fills its
record from them as from values it read. Each read here has an outcome, `none`
when the helper fails, and the values a handler works with are what the reads
leave in its variables; the handlers of the other modules are these with every
read succeeding. A failed read drops its invocation only where a filter
happens to reject zero: the `tgid` reads of the two `sched_switch` handlers and
`tcprtt.c`'s `srtt_us`. Everywhere else the invocation is merged, under a key
or with fields built from the zeros.
-/

namespace XtopEbpf.Reads

open Runtime Accumulate Pairing Watchdog Tcp BlockIo Counters Descriptive

/-! ## Read outcomes -/

/-- What a scalar destination holds after a read: the value read, or the zeros the helper writes
over it when it fails. -/
def dest {w : Nat} (r : Option (BitVec w)) : BitVec w := r.getD 0

@[simp] theorem dest_some {w : Nat} (v : BitVec w) : dest (some v) = v := rfl

@[simp] theorem dest_none {w : Nat} : dest (none : Option (BitVec w)) = 0 := rfl

/-- `bpf_probe_read_kernel_str` into `buf`: the string copied in, or the whole buffer zeroed
when the helper fails. -/
def readStr (buf : List U8) : Option (List U8) → List U8
  | some src => readStrInto buf src
  | none => List.replicate buf.length 0

/-- A failed string read leaves the buffer empty, whatever it held. -/
theorem cstr_readStr_none (buf : List U8) : cstr (readStr buf none) = [] := by
  cases buf <;> simp [readStr, cstr, List.replicate_succ]

/-- The socket fields a handler's `BPF_CORE_READ`s leave in its variables. -/
def sockRead (daddr : Option U32) (dport : Option U16) (srttUs : Option U32) : Sock :=
  ⟨dest daddr, dest dport, dest srttUs⟩

/-- The task fields a handler's `BPF_CORE_READ`s leave in its variables. -/
def taskRead (pid tgid state : Option U32) : Task := ⟨dest pid, dest tgid, dest state⟩

/-! ## `modload.c` -/

/-- `handle_do_init_module` with the outcome of `BPF_CORE_READ_STR_INTO(&name, mod, name)`:
the module's name, or `none`. -/
def handleDoInitModuleReads (modAccum : BpfMap U64 ModVal) (modName : Option (List U8))
    (now : U64) : BpfMap U64 ModVal :=
  let name := readStr (List.replicate 56 0) modName
  upsert modAccum (Modload.nameKey name) (Modload.merge ⟨now, name⟩) (Modload.new ⟨now, name⟩)

/-- A name read that succeeds is the handler of `modload.c`. -/
theorem handleDoInitModuleReads_some (modAccum : BpfMap U64 ModVal) (modName : List U8)
    (now : U64) :
    handleDoInitModuleReads modAccum (some modName) now =
      Modload.handleDoInitModule modAccum modName now := rfl

/-! ## `execsnoop.c` -/

/-- `sched_process_exec` with the outcome of each of its reads. -/
structure ExecReadEvent where
  /-- `bpf_get_current_pid_tgid()`. -/
  pidTgid : U64
  /-- `bpf_get_current_uid_gid()`. -/
  uidGid : U64
  /-- `bpf_ktime_get_ns()`. -/
  now : U64
  /-- `bpf_get_current_comm()`. -/
  comm : List U8
  /-- The tracepoint record `ctx` points to, from its first byte. -/
  ctx : List U8
  /-- `bpf_probe_read_kernel(&data_loc, 4, ctx + 8)`: the `__data_loc` word, or `none`. -/
  dataLoc : Option U32
  /-- Whether `bpf_probe_read_kernel_str(buf, sz, ctx + off)` succeeds. -/
  strRead : Bool
  /-- `BPF_CORE_READ_INTO(&ppid, task, real_parent, tgid)`: the parent's `tgid`, or `none`. -/
  ppid : Option U32

/-- `read_filename(ctx, buf, sz)`: the string at the offset in the low half of `__data_loc`
copied into `buf`, or `buf` zeroed when the string read fails. -/
def readFilename (e : ExecReadEvent) (buf : List U8) : List U8 :=
  readStr buf (if e.strRead then some (e.ctx.drop (dest e.dataLoc &&& 0xFFFF).toNat) else none)

/-- The merge branch of `handle_sched_process_exec`. -/
def mergeExecReads (e : ExecReadEvent) (val : ExecVal) : ExecVal :=
  { count := val.count + 1, ts := e.now, ppid := dest e.ppid, uid := e.uidGid.setWidth 32,
    comm := e.comm, filename := readFilename e val.filename }

/-- The `new_val` of `handle_sched_process_exec`. -/
def newExecReads (e : ExecReadEvent) : ExecVal :=
  ⟨1, e.now, dest e.ppid, e.uidGid.setWidth 32, e.comm, readFilename e (List.replicate 128 0)⟩

/-- `handle_sched_process_exec` with the outcomes of its reads. -/
def handleSchedProcessExecReads (execAccum : BpfMap U32 ExecVal) (e : ExecReadEvent) :
    BpfMap U32 ExecVal :=
  if tgidOf e.pidTgid = 0 then execAccum
  else upsert execAccum (tgidOf e.pidTgid) (mergeExecReads e) (newExecReads e)

/-- Reads that succeed are the handler of `execsnoop.c`, on the string at the offset the
`__data_loc` word gives. -/
theorem handleSchedProcessExecReads_of_ok (execAccum : BpfMap U32 ExecVal) (e : ExecReadEvent)
    (ppid : U32) (hp : e.ppid = some ppid) (hs : e.strRead = true) :
    handleSchedProcessExecReads execAccum e =
      Execsnoop.handleSchedProcessExec execAccum
        ⟨e.pidTgid, e.uidGid, ppid, e.now, e.comm, e.ctx.drop (dest e.dataLoc &&& 0xFFFF).toNat⟩ := by
  have hm : mergeExecReads e = Execsnoop.merge
      ⟨e.pidTgid, e.uidGid, ppid, e.now, e.comm, e.ctx.drop (dest e.dataLoc &&& 0xFFFF).toNat⟩ :=
    funext fun _ => by simp [mergeExecReads, Execsnoop.merge, readFilename, readStr, hp, hs]
  have hn : newExecReads e = Execsnoop.new
      ⟨e.pidTgid, e.uidGid, ppid, e.now, e.comm, e.ctx.drop (dest e.dataLoc &&& 0xFFFF).toNat⟩ := by
    simp [newExecReads, Execsnoop.new, readFilename, readStr, hp, hs]
  rw [handleSchedProcessExecReads, Execsnoop.handleSchedProcessExec, hm, hn]

/-! ## What a failed read leads to -/

/-- A module name read that fails keys the load by 0 and leaves an all-zero name. -/
theorem handleDoInitModuleReads_none (modAccum : BpfMap U64 ModVal) (now : U64) :
    handleDoInitModuleReads modAccum none now =
      upsert modAccum 0 (Modload.merge ⟨now, List.replicate 56 0⟩)
        (Modload.new ⟨now, List.replicate 56 0⟩) := by
  have hkey : Modload.nameKey (List.replicate 56 0) = 0 := by decide
  simp only [handleDoInitModuleReads, readStr, List.length_replicate, hkey]

/-- A `tcp_sendmsg` whose socket reads fail merges its bytes under `(pid, 0, 0)`. -/
theorem sendmsg_admitted_of_failed_reads (s : Sockio) (pidTgid size : U64)
    (hp : tgidOf pidTgid ≠ 0) :
    sockio.admitted s (.tcpSendmsg pidTgid (sockRead none none none) size) =
      [(⟨tgidOf pidTgid, 0, 0, 0⟩, .tx size)] := by
  have hz : bswap16 0#16 = 0#16 := by decide
  simp [sockio, show tgidOf pidTgid ≠ 0#32 from hp, Sockio.keyOf, sockRead, hz]

/-- A `tcp_cleanup_rbuf` whose socket reads fail merges its bytes under `(pid, 0, 0)`. -/
theorem cleanupRbuf_admitted_of_failed_reads (s : Sockio) (pidTgid : U64) (copied : U32)
    (hp : tgidOf pidTgid ≠ 0) (hc : ¬ copied.sle 0) :
    sockio.admitted s (.tcpCleanupRbuf pidTgid (sockRead none none none) copied) =
      [(⟨tgidOf pidTgid, 0, 0, 0⟩, .rx (copied.signExtend 64))] := by
  have hz : bswap16 0#16 = 0#16 := by decide
  simp [sockio, show tgidOf pidTgid ≠ 0#32 from hp, show ¬ copied.sle 0#32 from hc, Sockio.keyOf,
    sockRead, hz]

/-- A `tcp_recvmsg` entry whose socket reads fail stores the endpoint `(0, 0)`, and its exit
hands the wait to the upsert under `(pid, 0, 0)`. -/
theorem recv_admitted_of_failed_reads (s : Sockio) (pidTgid now now' : U64)
    (hp : tgidOf pidTgid ≠ 0) (hroom : s.recvInflight.HasRoom (tgidOf pidTgid))
    (hd : now' - now ≤ 30000000000) :
    sockio.admitted (sockio.step s (.recv (.recvEnter pidTgid (sockRead none none none) now)))
        (.recv (.recvExit pidTgid now')) = [(⟨tgidOf pidTgid, 0, 0, 0⟩, .recvWait (now' - now))] := by
  have hz : bswap16 0#16 = 0#16 := by decide
  have hl : (Sockio.step s (.recv (.recvEnter pidTgid (sockRead none none none) now))).recvInflight.lookupElem
      (tgidOf pidTgid) = some ⟨now, 0, 0, 0⟩ := by
    simp [Sockio.step, Sockio.recvStep, Sockio.handleTcpRecvmsgEnter, sockRead, hz,
      show tgidOf pidTgid ≠ 0#32 from hp, BpfMap.updateElem_any _ _ _ hroom, BpfMap.lookupElem_put]
  simp only [sockio, sockioRecv, LatencyProgram.toAccumProgram, Sockio.recvOps, hp, if_false,
    pairRun, pairYield, hl, if_true, Option.toList_some, List.append_nil, List.filterMap_cons,
    List.filterMap_nil, Sockio.recvTail, BitVec.not_lt.mpr hd]

/-- A `tcp_send_reset` whose socket reads fail counts the reset with `last_daddr` and
`last_dport` 0. -/
theorem tcpreset_admitted_of_failed_reads (m : BpfMap U32 ResetVal) (pidTgid : U64) :
    tcpreset.admitted m (pidTgid, sockRead none none none) = [(tgidOf pidTgid, (0, 0))] := rfl

/-- A `tcp_rcv_established` whose `srtt_us` read fails is dropped by the zero filter. -/
theorem tcprtt_step_of_failed_srtt (m : BpfMap RttKey RttVal) (pidTgid : U64) (daddr : Option U32)
    (dport : Option U16) : tcprtt.step m (pidTgid, sockRead daddr dport none) = m := by
  simp [tcprtt, AccumProgram.singleShot, Tcprtt.handleTcpRcvEstablished, sockRead]

/-- A `tcp_rcv_established` whose address and port reads fail and whose `srtt_us` read does not
merges its sample under `(0, 0)`. -/
theorem tcprtt_admitted_of_failed_endpoint (m : BpfMap RttKey RttVal) (pidTgid : U64) (srtt : U32)
    (h : srtt >>> 3 ≠ 0) :
    tcprtt.admitted m (pidTgid, sockRead none none (some srtt)) =
      [(⟨0, 0, 0⟩, ⟨srtt >>> 3, tgidOf pidTgid, h⟩)] := by
  have hz : bswap16 0 = 0 := by decide
  simp only [tcprtt, AccumProgram.singleShot, Tcprtt.keyedSample, Tcprtt.keyOf, sockRead, dest_some,
    dest_none, dif_neg h, hz, Option.toList_some]

/-- An established connection whose `skc_daddr` read fails is merged with `daddr` 0. -/
theorem tcpconnlat_admitted_of_failed_daddr (s : Tcpconnlat) (skaddr now : U64) (start : ConnStart)
    (hs : s.connInflight.lookupElem skaddr = some start) :
    tcpconnlat.toAccumProgram.admitted s (.setState skaddr 2 1 (dest none) now) =
      [(start.pid, ⟨now - start.ts, start.pid, 0⟩)] := by
  simp [tcpconnlat, LatencyProgram.toAccumProgram, Tcpconnlat.ops, pairRun, pairYield, hs]

/-- A retransmit whose `skc_daddr` read fails is counted with `daddr` 0. -/
theorem tcpretrans_admitted_of_failed_daddr (m : BpfMap U32 RetransVal) (pidTgid : U64)
    (sport dport : U16) :
    tcpretrans.admitted m ⟨pidTgid, sport, dport, dest none⟩ =
      [(tgidOf pidTgid, ⟨pidTgid, sport, dport, 0⟩)] := rfl

/-- A `sched_switch` of `runqlat.c` whose `tgid` read fails is dropped by the pid-0 filter. -/
theorem runqlat_step_of_failed_tgid (s : Runqlat) (pid state : Option U32) (now : U64) :
    runqlat.step s (.schedSwitch (taskRead pid none state) now) = s := by
  simp [runqlat, Runqlat.step, handleSchedSwitchRqlat, finishStart, taskRead]

/-- A task whose `tgid` read fails is not recorded as switched out. -/
theorem recordSwitchOut_of_failed_tgid (start : BpfMap U32 U64) (pid state : Option U32)
    (now : U64) : recordSwitchOut start (taskRead pid none state) now = start := by
  simp [recordSwitchOut, recordsSwitchOut, taskRead]

/-- A task whose `tgid` read fails is not looked up when switched in. -/
theorem finishSwitchIn_of_failed_tgid (s : Offcpu) (pid state : Option U32) (now : U64) :
    finishSwitchIn s (taskRead pid none state) now = s := by
  simp [finishSwitchIn, taskRead]

/-- A `sched_switch` of `offcpu.c` drops the half whose task's `tgid` read fails and runs the
other half as usual; with both reads failing it does nothing. -/
theorem offcpu_step_of_failed_tgid (s : Offcpu) (prev next : Task)
    (prevPid prevState nextPid nextState : Option U32) (now : U64) :
    offcpu.step s (.schedSwitch (taskRead prevPid none prevState) next now) =
        finishSwitchIn s next now ∧
      offcpu.step s (.schedSwitch prev (taskRead nextPid none nextState) now) =
        { s with offcpuStart := recordSwitchOut s.offcpuStart prev now } ∧
      offcpu.step s (.schedSwitch (taskRead prevPid none prevState) (taskRead nextPid none nextState)
        now) = s := by
  refine ⟨?_, ?_, ?_⟩ <;>
    simp only [offcpu, Offcpu.step, handleSchedSwitch, recordSwitchOut_of_failed_tgid,
      finishSwitchIn_of_failed_tgid]

/-- A task whose `__state` read fails is recorded as switched out, as a preempted one. -/
theorem recordSwitchOut_of_failed_state (start : BpfMap U32 U64) (pid : Option U32) (tgid : U32)
    (now : U64)
    (ht : tgid > 1) :
    recordSwitchOut start (taskRead pid (some tgid) none) now = (start.updateElem tgid now .any).2 := by
  simp [recordSwitchOut, recordsSwitchOut, taskRead, show ¬ tgid ≤ 1#32 from BitVec.not_le.mpr ht]

/-- A `__data_loc` read that fails makes `read_filename` copy the string at offset 0 of the
tracepoint record. -/
theorem filename_of_failed_dataLoc (e : ExecReadEvent) (val : ExecVal) (hs : e.strRead = true)
    (hd : e.dataLoc = none) :
    cstr (mergeExecReads e val).filename = (cstr e.ctx).take (val.filename.length - 1) ∧
      cstr (newExecReads e).filename = (cstr e.ctx).take 127 := by
  simp [mergeExecReads, newExecReads, readFilename, readStr, hs, hd, cstr_readStrInto]

/-- A filename string read that fails leaves the buffer all zeros, an empty string. -/
theorem filename_of_failed_strRead (e : ExecReadEvent) (val : ExecVal) (hs : e.strRead = false) :
    (mergeExecReads e val).filename = List.replicate val.filename.length 0 ∧
      (newExecReads e).filename = List.replicate 128 0 ∧
      cstr (mergeExecReads e val).filename = [] ∧ cstr (newExecReads e).filename = [] := by
  have hm : (mergeExecReads e val).filename = readStr val.filename none := by
    simp [mergeExecReads, readFilename, hs]
  have hn : (newExecReads e).filename = readStr (List.replicate 128 0) none := by
    simp [newExecReads, readFilename, hs]
  rw [hm, hn, cstr_readStr_none, cstr_readStr_none]
  simp [readStr]

/-- A `ppid` read that fails leaves `ppid` 0. -/
theorem ppid_of_failed_read (e : ExecReadEvent) (val : ExecVal) (hp : e.ppid = none) :
    (mergeExecReads e val).ppid = 0 ∧ (newExecReads e).ppid = 0 := by
  simp [mergeExecReads, newExecReads, hp]

/-- No handler checks a payload read: over every state and every invocation, a read that fails
leaves zeros that the handler keys, filters and fills its record with. -/
theorem failed_reads_proceed_with_zeros :
    (∀ s pidTgid size, tgidOf pidTgid ≠ 0 →
      sockio.admitted s (.tcpSendmsg pidTgid (sockRead none none none) size) =
        [(⟨tgidOf pidTgid, 0, 0, 0⟩, .tx size)]) ∧
    (∀ s pidTgid copied, tgidOf pidTgid ≠ 0 → ¬ copied.sle 0 →
      sockio.admitted s (.tcpCleanupRbuf pidTgid (sockRead none none none) copied) =
        [(⟨tgidOf pidTgid, 0, 0, 0⟩, .rx (copied.signExtend 64))]) ∧
    (∀ s pidTgid now now', tgidOf pidTgid ≠ 0 → s.recvInflight.HasRoom (tgidOf pidTgid) →
      now' - now ≤ 30000000000 →
      sockio.admitted (sockio.step s (.recv (.recvEnter pidTgid (sockRead none none none) now)))
        (.recv (.recvExit pidTgid now')) = [(⟨tgidOf pidTgid, 0, 0, 0⟩, .recvWait (now' - now))]) ∧
    (∀ m pidTgid, tcpreset.admitted m (pidTgid, sockRead none none none) =
      [(tgidOf pidTgid, (0, 0))]) ∧
    (∀ m pidTgid daddr dport, tcprtt.step m (pidTgid, sockRead daddr dport none) = m) ∧
    (∀ m pidTgid (srtt : U32) (h : srtt >>> 3 ≠ 0), tcprtt.admitted m (pidTgid, sockRead none none (some srtt)) =
      [(⟨0, 0, 0⟩, ⟨srtt >>> 3, tgidOf pidTgid, h⟩)]) ∧
    (∀ s skaddr now start, s.connInflight.lookupElem skaddr = some start →
      tcpconnlat.toAccumProgram.admitted s (.setState skaddr 2 1 (dest none) now) =
        [(start.pid, ⟨now - start.ts, start.pid, 0⟩)]) ∧
    (∀ m pidTgid sport dport, tcpretrans.admitted m ⟨pidTgid, sport, dport, dest none⟩ =
      [(tgidOf pidTgid, ⟨pidTgid, sport, dport, 0⟩)]) ∧
    (∀ s pid state now, runqlat.step s (.schedSwitch (taskRead pid none state) now) = s) ∧
    (∀ s prev next prevPid prevState nextPid nextState now,
      offcpu.step s (.schedSwitch (taskRead prevPid none prevState) next now) =
          finishSwitchIn s next now ∧
        offcpu.step s (.schedSwitch prev (taskRead nextPid none nextState) now) =
          { s with offcpuStart := recordSwitchOut s.offcpuStart prev now } ∧
        offcpu.step s (.schedSwitch (taskRead prevPid none prevState)
          (taskRead nextPid none nextState) now) = s) ∧
    (∀ start pid tgid now, tgid > 1 →
      recordSwitchOut start (taskRead pid (some tgid) none) now = (start.updateElem tgid now .any).2) ∧
    (∀ m now, handleDoInitModuleReads m none now =
      upsert m 0 (Modload.merge ⟨now, List.replicate 56 0⟩) (Modload.new ⟨now, List.replicate 56 0⟩)) ∧
    (∀ e val, e.strRead = true → e.dataLoc = none →
      cstr (mergeExecReads e val).filename = (cstr e.ctx).take (val.filename.length - 1) ∧
        cstr (newExecReads e).filename = (cstr e.ctx).take 127) ∧
    (∀ e val, e.strRead = false →
      (mergeExecReads e val).filename = List.replicate val.filename.length 0 ∧
        (newExecReads e).filename = List.replicate 128 0 ∧
        cstr (mergeExecReads e val).filename = [] ∧ cstr (newExecReads e).filename = []) ∧
    ∀ e val, e.ppid = none → (mergeExecReads e val).ppid = 0 ∧ (newExecReads e).ppid = 0 :=
  ⟨sendmsg_admitted_of_failed_reads, cleanupRbuf_admitted_of_failed_reads,
    recv_admitted_of_failed_reads, tcpreset_admitted_of_failed_reads, tcprtt_step_of_failed_srtt,
    tcprtt_admitted_of_failed_endpoint, tcpconnlat_admitted_of_failed_daddr,
    tcpretrans_admitted_of_failed_daddr, runqlat_step_of_failed_tgid, offcpu_step_of_failed_tgid,
    recordSwitchOut_of_failed_state, handleDoInitModuleReads_none, filename_of_failed_dataLoc,
    filename_of_failed_strRead, ppid_of_failed_read⟩

/-- Pid 7 sends 100 bytes on a socket whose two reads fail, and a module whose name read fails is
loaded at time 5. -/
theorem failed_reads_still_merge :
    (sockio.step Sockio.init (.tcpSendmsg 0x700000007 (sockRead none none none) 100)).sockioAccum.lookupElem
        ⟨7, 0, 0, 0⟩ = some ⟨100, 0, 0, 0, 0⟩ ∧
      (handleDoInitModuleReads Modload.init none 5).lookupElem 0 = some ⟨1, 5, List.replicate 56 0⟩ := by
  decide

end XtopEbpf.Reads
