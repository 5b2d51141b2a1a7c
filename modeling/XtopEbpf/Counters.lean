import XtopEbpf.Accumulate

/-!
# The single-shot counters

`cgthrottle.c`, `kfreeskb.c`, `sockstate.c`, `wbstall.c`, `swapevict.c`,
`tcpreset.c`, `tcpretrans.c`, `netthroughput.c`, `tcprtt.c`,
`ptracedetect.c`, `modload.c`, `execsnoop.c` and `oomkill.c` each own one
table and pair nothing: an invocation applies its filters, builds a key and
folds one sample into the table with the insert-or-merge code, except
`oomkill.c`, which overwrites its victim's entry with `BPF_ANY`. A program's
state is its table; helper results (`bpf_get_current_*`,
`bpf_ktime_get_ns()`, kernel reads) and tracepoint fields are the event's
fields. Each upserting program is a `singleShot` accumulation program.
-/

namespace XtopEbpf.Counters

open Runtime Accumulate

/-- `struct throttle_val`, `struct drop_val` and `struct state_val`: one `__u64 count`. -/
structure CountVal where
  /-- `count`. -/
  count : U64
  deriving DecidableEq, Repr, Inhabited

/-- The merge branch of a pure counter: `__sync_fetch_and_add(&val->count, 1)`. -/
def countMerge (_ : Unit) (val : CountVal) : CountVal := { count := val.count + 1 }

/-- The `new_val` of a pure counter: `{ .count = 1 }`. -/
def countNew (_ : Unit) : CountVal := { count := 1 }

/-! ## `cgthrottle.c` -/

namespace Cgthrottle

/-- `throttle_accum` as the loader creates it. -/
def init : BpfMap U64 CountVal := .empty 1024

/-- `handle_throttle_cfs_rq`, with the `bpf_get_current_cgroup_id()` it reads. -/
def handleThrottleCfsRq (throttleAccum : BpfMap U64 CountVal) (cgid : U64) : BpfMap U64 CountVal :=
  upsert throttleAccum cgid (countMerge ()) (countNew ())

end Cgthrottle

/-- `cgthrottle.c`: every throttle is counted under the current cgroup. -/
def cgthrottle : AccumProgram (BpfMap U64 CountVal) U64 U64 Unit CountVal :=
  .singleShot Cgthrottle.handleThrottleCfsRq (fun cgid => some (cgid, ())) countMerge countNew
    fun _ _ => rfl

/-! ## `kfreeskb.c` -/

namespace Kfreeskb

/-- `drop_accum` as the loader creates it. -/
def init : BpfMap U32 CountVal := .empty 256

/-- `handle_kfree_skb`: reason 0 (`NOT_SPECIFIED`) is skipped, others counted under the reason. -/
def handleKfreeSkb (dropAccum : BpfMap U32 CountVal) (reason : U32) : BpfMap U32 CountVal :=
  if reason = 0 then dropAccum else upsert dropAccum reason (countMerge ()) (countNew ())

end Kfreeskb

/-- `kfreeskb.c`, an event being the drop's `reason`. -/
def kfreeskb : AccumProgram (BpfMap U32 CountVal) U32 U32 Unit CountVal :=
  .singleShot Kfreeskb.handleKfreeSkb (fun reason => if reason = 0 then none else some (reason, ()))
    countMerge countNew fun m reason => by dsimp only; unfold Kfreeskb.handleKfreeSkb; split_ifs <;> rfl

/-! ## `sockstate.c` -/

/-- `struct state_key`. -/
structure StateKey where
  /-- `(__u16)ctx->oldstate`. -/
  oldstate : U16
  /-- `(__u16)ctx->newstate`. -/
  newstate : U16
  deriving DecidableEq, Repr

namespace Sockstate

/-- `state_accum` as the loader creates it. -/
def init : BpfMap StateKey CountVal := .empty 256

/-- The key of a transition: both `int` states truncated to 16 bits. -/
def keyOf (oldstate newstate : U32) : StateKey := ⟨oldstate.setWidth 16, newstate.setWidth 16⟩

/-- `handle_sock_set_state`: every transition is counted. -/
def handleSockSetState (stateAccum : BpfMap StateKey CountVal) (oldstate newstate : U32) :
    BpfMap StateKey CountVal :=
  upsert stateAccum (keyOf oldstate newstate) (countMerge ()) (countNew ())

end Sockstate

/-- `sockstate.c`, an event being `(ctx->oldstate, ctx->newstate)`. -/
def sockstate : AccumProgram (BpfMap StateKey CountVal) (U32 × U32) StateKey Unit CountVal :=
  .singleShot (fun m e => Sockstate.handleSockSetState m e.1 e.2)
    (fun e => some (Sockstate.keyOf e.1 e.2, ())) countMerge countNew fun _ _ => rfl

/-! ## `wbstall.c` -/

/-- `struct wb_val`. -/
structure WbVal where
  /-- `count`. -/
  count : U64
  /-- `total_pages`. -/
  totalPages : U64
  deriving DecidableEq, Repr, Inhabited

namespace Wbstall

/-- `wb_accum` as the loader creates it. -/
def init : BpfMap U32 WbVal := .empty 10240

/-- The merge branch, for one wait on `nr_pages` pages. -/
def merge (nrPages : U64) (val : WbVal) : WbVal :=
  { count := val.count + 1, totalPages := val.totalPages + nrPages }

/-- The `new_val`. -/
def new (nrPages : U64) : WbVal := { count := 1, totalPages := nrPages }

/-- `handle_writeback_wait`: pid 0 is skipped. -/
def handleWritebackWait (wbAccum : BpfMap U32 WbVal) (pidTgid nrPages : U64) : BpfMap U32 WbVal :=
  if tgidOf pidTgid = 0 then wbAccum else upsert wbAccum (tgidOf pidTgid) (merge nrPages) (new nrPages)

/-- What one wait hands to the upsert. -/
def keyedSample (e : U64 × U64) : Option (U32 × U64) :=
  if tgidOf e.1 = 0 then none else some (tgidOf e.1, e.2)

end Wbstall

/-- `wbstall.c`, an event being `(pid_tgid, ctx->nr_pages)`. -/
def wbstall : AccumProgram (BpfMap U32 WbVal) (U64 × U64) U32 U64 WbVal :=
  .singleShot (fun m e => Wbstall.handleWritebackWait m e.1 e.2) Wbstall.keyedSample Wbstall.merge
    Wbstall.new fun m e => by
      dsimp only; unfold Wbstall.handleWritebackWait Wbstall.keyedSample; split_ifs <;> rfl

/-! ## `swapevict.c` -/

/-- `struct swap_val`. -/
structure SwapVal where
  /-- `read_pages`. -/
  readPages : U64
  /-- `write_pages`. -/
  writePages : U64
  deriving DecidableEq, Repr, Inhabited

/-- Which of the two swap hooks ran. -/
inductive SwapDir where
  /-- `swap_readpage`. -/
  | read
  /-- `swap_writepage`. -/
  | write
  deriving DecidableEq, Repr

namespace Swapevict

/-- `swap_accum` as the loader creates it. -/
def init : BpfMap U32 SwapVal := .empty 10240

/-- The merge branches: the hook's own page counter is bumped. -/
def merge : SwapDir → SwapVal → SwapVal
  | .read, val => { val with readPages := val.readPages + 1 }
  | .write, val => { val with writePages := val.writePages + 1 }

/-- The `new_val`s: `{1, 0}` for a read, `{0, 1}` for a write. -/
def new : SwapDir → SwapVal
  | .read => ⟨1, 0⟩
  | .write => ⟨0, 1⟩

/-- The body both hooks share: pid 0 is skipped, the page counted under the pid. -/
def swapAccount (swapAccum : BpfMap U32 SwapVal) (pidTgid : U64) (d : SwapDir) : BpfMap U32 SwapVal :=
  if tgidOf pidTgid = 0 then swapAccum else upsert swapAccum (tgidOf pidTgid) (merge d) (new d)

/-- `handle_swap_readpage`. -/
def handleSwapReadpage (swapAccum : BpfMap U32 SwapVal) (pidTgid : U64) : BpfMap U32 SwapVal :=
  swapAccount swapAccum pidTgid .read

/-- `handle_swap_writepage`. -/
def handleSwapWritepage (swapAccum : BpfMap U32 SwapVal) (pidTgid : U64) : BpfMap U32 SwapVal :=
  swapAccount swapAccum pidTgid .write

/-- Invocations of `swapevict.c`. -/
inductive Event where
  /-- The kprobe on `swap_readpage`. -/
  | swapReadpage (pidTgid : U64)
  /-- The kprobe on `swap_writepage`. -/
  | swapWritepage (pidTgid : U64)

/-- One invocation. -/
def step (swapAccum : BpfMap U32 SwapVal) : Event → BpfMap U32 SwapVal
  | .swapReadpage pidTgid => handleSwapReadpage swapAccum pidTgid
  | .swapWritepage pidTgid => handleSwapWritepage swapAccum pidTgid

/-- What one invocation hands to the upsert. -/
def keyedSample : Event → Option (U32 × SwapDir)
  | .swapReadpage pidTgid => if tgidOf pidTgid = 0 then none else some (tgidOf pidTgid, .read)
  | .swapWritepage pidTgid => if tgidOf pidTgid = 0 then none else some (tgidOf pidTgid, .write)

end Swapevict

/-- `swapevict.c`. -/
def swapevict : AccumProgram (BpfMap U32 SwapVal) Swapevict.Event U32 SwapDir SwapVal :=
  .singleShot Swapevict.step Swapevict.keyedSample Swapevict.merge Swapevict.new fun m e => by
    cases e <;>
      simp only [Swapevict.step, Swapevict.handleSwapReadpage, Swapevict.handleSwapWritepage,
        Swapevict.swapAccount, Swapevict.keyedSample] <;> split_ifs <;> rfl

/-! ## `oomkill.c` -/

/-- `struct oom_val`. -/
structure OomVal where
  /-- `ts`. -/
  ts : U64
  /-- `total_vm`, always 0. -/
  totalVm : U64
  /-- `anon_rss`, always 0. -/
  anonRss : U64
  deriving DecidableEq, Repr, Inhabited

namespace Oomkill

/-- `oom_accum` as the loader creates it. -/
def init : BpfMap U32 OomVal := .empty 1024

/-- `handle_mark_victim`: the victim's entry is overwritten with `BPF_ANY`. -/
def handleMarkVictim (oomAccum : BpfMap U32 OomVal) (pid : U32) (now : U64) : BpfMap U32 OomVal :=
  (oomAccum.updateElem pid ⟨now, 0, 0⟩ .any).2

/-- A run of `handle_mark_victim` invocations, each a victim's pid and `bpf_ktime_get_ns()`. -/
def run (oomAccum : BpfMap U32 OomVal) (es : List (U32 × U64)) : BpfMap U32 OomVal :=
  es.foldl (fun m e => handleMarkVictim m e.1 e.2) oomAccum

/-- Runs never change the table's capacity. -/
theorem maxEntries_run : ∀ (oomAccum : BpfMap U32 OomVal) (es : List (U32 × U64)),
    (run oomAccum es).maxEntries = oomAccum.maxEntries
  | _, [] => rfl
  | m, e :: es => by
    rw [run, List.foldl_cons, ← run, maxEntries_run _ es, handleMarkVictim, BpfMap.maxEntries_updateElem]

end Oomkill

/-! ## `tcpreset.c` -/

/-- `struct reset_val`. -/
structure ResetVal where
  /-- `count`. -/
  count : U64
  /-- `last_daddr`. -/
  lastDaddr : U32
  /-- `last_dport`, in network byte order. -/
  lastDport : U16
  deriving DecidableEq, Repr, Inhabited

namespace Tcpreset

/-- `reset_accum` as the loader creates it. -/
def init : BpfMap U32 ResetVal := .empty 10240

/-- The merge branch, for a reset sent to `(daddr, dport)`. -/
def merge (x : U32 × U16) (val : ResetVal) : ResetVal :=
  { count := val.count + 1, lastDaddr := x.1, lastDport := x.2 }

/-- The `new_val`. -/
def new (x : U32 × U16) : ResetVal := ⟨1, x.1, x.2⟩

/-- `handle_tcp_send_reset`: every reset is counted under the pid, pid 0 included. -/
def handleTcpSendReset (resetAccum : BpfMap U32 ResetVal) (pidTgid : U64) (sk : Sock) :
    BpfMap U32 ResetVal :=
  upsert resetAccum (tgidOf pidTgid) (merge (sk.skcDaddr, sk.skcDport)) (new (sk.skcDaddr, sk.skcDport))

end Tcpreset

/-- `tcpreset.c`, an event being `(pid_tgid, sk)`. -/
def tcpreset : AccumProgram (BpfMap U32 ResetVal) (U64 × Sock) U32 (U32 × U16) ResetVal :=
  .singleShot (fun m e => Tcpreset.handleTcpSendReset m e.1 e.2)
    (fun e => some (tgidOf e.1, (e.2.skcDaddr, e.2.skcDport))) Tcpreset.merge Tcpreset.new
    fun _ _ => rfl

/-! ## `tcpretrans.c` -/

/-- `struct retrans_val`. -/
structure RetransVal where
  /-- `count`. -/
  count : U32
  /-- `last_sport`. -/
  lastSport : U16
  /-- `last_dport`. -/
  lastDport : U16
  /-- `last_daddr`. -/
  lastDaddr : U32
  deriving DecidableEq, Repr, Inhabited

namespace Tcpretrans

/-- `retrans_accum` as the loader creates it. -/
def init : BpfMap U32 RetransVal := .empty 10240

/-- Invocations: `tcp_retransmit_skb` with the fields the handler reads. -/
structure Event where
  /-- `bpf_get_current_pid_tgid()`. -/
  pidTgid : U64
  /-- `ctx->sport`. -/
  sport : U16
  /-- `ctx->dport`. -/
  dport : U16
  /-- The 4 bytes of `ctx->daddr`. -/
  daddr : U32
  deriving DecidableEq, Repr

/-- The merge branch. -/
def merge (e : Event) (val : RetransVal) : RetransVal :=
  { count := val.count + 1, lastSport := e.sport, lastDport := e.dport, lastDaddr := e.daddr }

/-- The `new_val`. -/
def new (e : Event) : RetransVal := ⟨1, e.sport, e.dport, e.daddr⟩

/-- `handle_tcp_retransmit`: pid 0 (a timer) is recorded too. -/
def handleTcpRetransmit (retransAccum : BpfMap U32 RetransVal) (e : Event) : BpfMap U32 RetransVal :=
  upsert retransAccum (tgidOf e.pidTgid) (merge e) (new e)

end Tcpretrans

/-- `tcpretrans.c`. -/
def tcpretrans : AccumProgram (BpfMap U32 RetransVal) Tcpretrans.Event U32 Tcpretrans.Event
    RetransVal :=
  .singleShot Tcpretrans.handleTcpRetransmit (fun e => some (tgidOf e.pidTgid, e))
    Tcpretrans.merge Tcpretrans.new fun _ _ => rfl

/-! ## `netthroughput.c` -/

/-- `struct net_val`. -/
structure NetVal where
  /-- `tx_bytes`. -/
  txBytes : U64
  /-- `rx_bytes`. -/
  rxBytes : U64
  deriving DecidableEq, Repr, Inhabited

namespace Netthroughput

/-- `net_accum` as the loader creates it. -/
def init : BpfMap U32 NetVal := .empty 10240

/-- The merge branch of `add_bytes(pid, tx, rx)`. -/
def merge (x : U64 × U64) (val : NetVal) : NetVal :=
  { txBytes := val.txBytes + x.1, rxBytes := val.rxBytes + x.2 }

/-- The `new_val` of `add_bytes`. -/
def new (x : U64 × U64) : NetVal := ⟨x.1, x.2⟩

/-- `add_bytes`. -/
def addBytes (netAccum : BpfMap U32 NetVal) (pid : U32) (tx rx : U64) : BpfMap U32 NetVal :=
  upsert netAccum pid (merge (tx, rx)) (new (tx, rx))

/-- `handle_tcp_sendmsg`: pid 0 is skipped. -/
def handleTcpSendmsg (netAccum : BpfMap U32 NetVal) (pidTgid size : U64) : BpfMap U32 NetVal :=
  if tgidOf pidTgid = 0 then netAccum else addBytes netAccum (tgidOf pidTgid) size 0

/-- `handle_tcp_cleanup_rbuf`: pid 0 and `copied <= 0` are skipped, else `(__u64)copied` counts. -/
def handleTcpCleanupRbuf (netAccum : BpfMap U32 NetVal) (pidTgid : U64) (copied : BitVec 32) :
    BpfMap U32 NetVal :=
  if tgidOf pidTgid = 0 ∨ copied.sle 0 then netAccum
  else addBytes netAccum (tgidOf pidTgid) 0 (copied.signExtend 64)

/-- Invocations of `netthroughput.c`. -/
inductive Event where
  /-- The kprobe on `tcp_sendmsg`, with its `size`. -/
  | tcpSendmsg (pidTgid size : U64)
  /-- The kprobe on `tcp_cleanup_rbuf`, with its `int copied`. -/
  | tcpCleanupRbuf (pidTgid : U64) (copied : BitVec 32)

/-- One invocation. -/
def step (netAccum : BpfMap U32 NetVal) : Event → BpfMap U32 NetVal
  | .tcpSendmsg pidTgid size => handleTcpSendmsg netAccum pidTgid size
  | .tcpCleanupRbuf pidTgid copied => handleTcpCleanupRbuf netAccum pidTgid copied

/-- What one invocation hands to `add_bytes`. -/
def keyedSample : Event → Option (U32 × (U64 × U64))
  | .tcpSendmsg pidTgid size => if tgidOf pidTgid = 0 then none else some (tgidOf pidTgid, (size, 0))
  | .tcpCleanupRbuf pidTgid copied =>
    if tgidOf pidTgid = 0 ∨ copied.sle 0 then none
    else some (tgidOf pidTgid, (0, copied.signExtend 64))

end Netthroughput

/-- `netthroughput.c`. -/
def netthroughput : AccumProgram (BpfMap U32 NetVal) Netthroughput.Event U32 (U64 × U64) NetVal :=
  .singleShot Netthroughput.step Netthroughput.keyedSample Netthroughput.merge Netthroughput.new
    fun m e => by
      cases e <;>
        simp only [Netthroughput.step, Netthroughput.handleTcpSendmsg,
          Netthroughput.handleTcpCleanupRbuf, Netthroughput.keyedSample] <;> split_ifs <;> rfl

/-! ## `tcprtt.c` -/

/-- `struct rtt_key`. -/
structure RttKey where
  /-- `daddr`. -/
  daddr : U32
  /-- `dport`, in host byte order. -/
  dport : U16
  /-- `pad`, zero from the designated initializer. -/
  pad : U16
  deriving DecidableEq, Repr

/-- `struct rtt_val`. -/
structure RttVal where
  /-- `sum_us`. -/
  sumUs : U64
  /-- `count`. -/
  count : U32
  /-- `min_us`, 0 while unset. -/
  minUs : U32
  /-- `max_us`. -/
  maxUs : U32
  /-- `last_pid`. -/
  lastPid : U32
  deriving DecidableEq, Repr, Inhabited

/-- One smoothed RTT that passed the `srtt == 0` filter, and the current pid. -/
structure RttSample where
  /-- `srtt`, in microseconds. -/
  srtt : U32
  /-- `pid`. -/
  pid : U32
  /-- The filter let it through. -/
  srtt_ne : srtt ≠ 0
  deriving DecidableEq

namespace Tcprtt

/-- `rtt_accum` as the loader creates it. -/
def init : BpfMap RttKey RttVal := .empty 10240

/-- The merge branch: `min_us` is replaced by a smaller sample or when still 0. -/
def merge (x : RttSample) (val : RttVal) : RttVal :=
  { sumUs := val.sumUs + x.srtt.setWidth 64, count := val.count + 1,
    minUs := if x.srtt < val.minUs ∨ val.minUs = 0 then x.srtt else val.minUs,
    maxUs := if x.srtt > val.maxUs then x.srtt else val.maxUs,
    lastPid := x.pid }

/-- The `new_val`. -/
def new (x : RttSample) : RttVal := ⟨x.srtt.setWidth 64, 1, x.srtt, x.srtt, x.pid⟩

/-- The key of a socket: `{skc_daddr, bswap16(skc_dport)}`. -/
def keyOf (sk : Sock) : RttKey := ⟨sk.skcDaddr, bswap16 sk.skcDport, 0⟩

/-- The key and sample of one established-state receive, or `none` if `srtt` is 0. -/
def keyedSample (e : U64 × Sock) : Option (RttKey × RttSample) :=
  if h : e.2.srttUs >>> 3 = 0 then none else some (keyOf e.2, ⟨e.2.srttUs >>> 3, tgidOf e.1, h⟩)

/-- `handle_tcp_rcv_established`: `srtt_us >> 3` of 0 is skipped; no pid filter. -/
def handleTcpRcvEstablished (rttAccum : BpfMap RttKey RttVal) (pidTgid : U64) (sk : Sock) :
    BpfMap RttKey RttVal :=
  let srtt := sk.srttUs >>> 3
  if h : srtt = 0 then rttAccum
  else
    let x : RttSample := ⟨srtt, tgidOf pidTgid, h⟩
    upsert rttAccum (keyOf sk) (merge x) (new x)

end Tcprtt

/-- `tcprtt.c`, an event being `(pid_tgid, sk)`. -/
def tcprtt : AccumProgram (BpfMap RttKey RttVal) (U64 × Sock) RttKey RttSample RttVal :=
  .singleShot (fun m e => Tcprtt.handleTcpRcvEstablished m e.1 e.2) Tcprtt.keyedSample Tcprtt.merge
    Tcprtt.new fun m e => by
      unfold Tcprtt.handleTcpRcvEstablished Tcprtt.keyedSample; dsimp only; split_ifs <;> rfl

/-! ## `ptracedetect.c` -/

/-- `PTRACE_POKETEXT`. -/
def PTRACE_POKETEXT : U64 := 4
/-- `PTRACE_POKEDATA`. -/
def PTRACE_POKEDATA : U64 := 5
/-- `PTRACE_SETREGS`. -/
def PTRACE_SETREGS : U64 := 13
/-- `PTRACE_ATTACH`. -/
def PTRACE_ATTACH : U64 := 16
/-- `PTRACE_SEIZE`. -/
def PTRACE_SEIZE : U64 := 0x4206

/-- `struct ptrace_key`. -/
structure PtraceKey where
  /-- `tracer_pid`. -/
  tracerPid : U32
  /-- `target_pid`. -/
  targetPid : U32
  deriving DecidableEq, Repr

/-- `struct ptrace_val`. -/
structure PtraceVal where
  /-- `count`. -/
  count : U64
  /-- `ts`. -/
  ts : U64
  /-- `request`. -/
  request : U64
  /-- `tracer_comm`. -/
  tracerComm : List U8
  deriving DecidableEq, Repr, Inhabited

/-- What one recorded request writes besides the count. -/
structure PtraceSample where
  /-- `bpf_ktime_get_ns()`. -/
  ts : U64
  /-- `req`. -/
  request : U64
  /-- `bpf_get_current_comm()`. -/
  comm : List U8
  deriving DecidableEq, Repr

namespace Ptracedetect

/-- `ptrace_accum` as the loader creates it. -/
def init : BpfMap PtraceKey PtraceVal := .empty 256

/-- Attach, seize, poke-text, poke-data and set-regs requests are recorded. -/
def suspicious (req : U64) : Bool :=
  req = PTRACE_ATTACH || req = PTRACE_SEIZE || req = PTRACE_POKETEXT || req = PTRACE_POKEDATA ||
    req = PTRACE_SETREGS

/-- The merge branch. -/
def merge (x : PtraceSample) (val : PtraceVal) : PtraceVal :=
  { count := val.count + 1, ts := x.ts, request := x.request, tracerComm := x.comm }

/-- The `new_val`. -/
def new (x : PtraceSample) : PtraceVal := ⟨1, x.ts, x.request, x.comm⟩

/-- Invocations: `sys_enter_ptrace` with its `request` and `pid` arguments. -/
structure Event where
  /-- `(__u64)ctx->request`. -/
  request : U64
  /-- `ctx->pid`, the target. -/
  pid : U64
  /-- `bpf_get_current_pid_tgid()` of the tracer. -/
  pidTgid : U64
  /-- `bpf_ktime_get_ns()`. -/
  now : U64
  /-- `bpf_get_current_comm()`. -/
  comm : List U8

/-- The key and sample of a recorded request, or `none` if a filter drops it. -/
def keyedSample (e : Event) : Option (PtraceKey × PtraceSample) :=
  if !suspicious e.request then none
  else if tgidOf e.pidTgid = 0 then none
  else some (⟨tgidOf e.pidTgid, e.pid.setWidth 32⟩, ⟨e.now, e.request, e.comm⟩)

/-- `handle_sys_enter_ptrace`. -/
def handleSysEnterPtrace (ptraceAccum : BpfMap PtraceKey PtraceVal) (e : Event) :
    BpfMap PtraceKey PtraceVal :=
  if !suspicious e.request then ptraceAccum
  else
    let tracerPid := tgidOf e.pidTgid
    if tracerPid = 0 then ptraceAccum
    else
      let key : PtraceKey := ⟨tracerPid, e.pid.setWidth 32⟩
      upsert ptraceAccum key (merge ⟨e.now, e.request, e.comm⟩) (new ⟨e.now, e.request, e.comm⟩)

end Ptracedetect

/-- `ptracedetect.c`. -/
def ptracedetect : AccumProgram (BpfMap PtraceKey PtraceVal) Ptracedetect.Event PtraceKey
    PtraceSample PtraceVal :=
  .singleShot Ptracedetect.handleSysEnterPtrace Ptracedetect.keyedSample Ptracedetect.merge
    Ptracedetect.new fun m e => by
      unfold Ptracedetect.handleSysEnterPtrace Ptracedetect.keyedSample; dsimp only; split_ifs <;> rfl

/-! ## `modload.c` -/

/-- `struct mod_val`. -/
structure ModVal where
  /-- `count`. -/
  count : U64
  /-- `ts`. -/
  ts : U64
  /-- `name[56]`, set by the insert branch only. -/
  name : List U8
  deriving DecidableEq, Repr, Inhabited

/-- What one load writes besides the count. -/
structure ModSample where
  /-- `bpf_ktime_get_ns()`. -/
  ts : U64
  /-- The 56-byte `name` buffer. -/
  name : List U8
  deriving DecidableEq, Repr

namespace Modload

/-- `mod_accum` as the loader creates it. -/
def init : BpfMap U64 ModVal := .empty 256

/-- `__builtin_memcpy(&key, name, 8)` on a little-endian machine: the first 8 bytes of the
name, the first one lowest. -/
def nameKey (name : List U8) : U64 :=
  BitVec.ofNat 64 ((name.take 8).foldr (fun b acc => b.toNat + 256 * acc) 0)

/-- `char name[56] = {}; BPF_CORE_READ_STR_INTO(&name, mod, name)`. -/
def readName (modName : List U8) : List U8 := readStrInto (List.replicate 56 0) modName

/-- The merge branch: the name is not rewritten. -/
def merge (x : ModSample) (val : ModVal) : ModVal := { val with count := val.count + 1, ts := x.ts }

/-- The `new_val`: `{ .count = 1, .ts = now }` with the name copied in. -/
def new (x : ModSample) : ModVal := ⟨1, x.ts, x.name⟩

/-- The key and sample of a load of the module named `modName`. -/
def keyedSample (e : List U8 × U64) : U64 × ModSample :=
  (nameKey (readName e.1), ⟨e.2, readName e.1⟩)

/-- `handle_do_init_module`, with `mod->name` and `bpf_ktime_get_ns()`. -/
def handleDoInitModule (modAccum : BpfMap U64 ModVal) (modName : List U8) (now : U64) :
    BpfMap U64 ModVal :=
  let name := readName modName
  let key := nameKey name
  upsert modAccum key (merge ⟨now, name⟩) (new ⟨now, name⟩)

end Modload

/-- `modload.c`, an event being `(mod->name, bpf_ktime_get_ns())`. -/
def modload : AccumProgram (BpfMap U64 ModVal) (List U8 × U64) U64 ModSample ModVal :=
  .singleShot (fun m e => Modload.handleDoInitModule m e.1 e.2) (some ∘ Modload.keyedSample)
    Modload.merge Modload.new fun _ _ => rfl

/-! ## `execsnoop.c` -/

/-- `struct exec_val`. -/
structure ExecVal where
  /-- `count`. -/
  count : U64
  /-- `ts`. -/
  ts : U64
  /-- `ppid`. -/
  ppid : U32
  /-- `uid`. -/
  uid : U32
  /-- `comm[16]`. -/
  comm : List U8
  /-- `filename[128]`. -/
  filename : List U8
  deriving DecidableEq, Repr, Inhabited

namespace Execsnoop

/-- `exec_accum` as the loader creates it. -/
def init : BpfMap U32 ExecVal := .empty 10240

/-- Invocations: `sched_process_exec` with the helper values it reads. -/
structure Event where
  /-- `bpf_get_current_pid_tgid()`. -/
  pidTgid : U64
  /-- `bpf_get_current_uid_gid()`. -/
  uidGid : U64
  /-- `current->real_parent->tgid`. -/
  ppid : U32
  /-- `bpf_ktime_get_ns()`. -/
  now : U64
  /-- `bpf_get_current_comm()`. -/
  comm : List U8
  /-- The string at the tracepoint's `filename` data location. -/
  filename : List U8

/-- What one exec writes besides the count: the event itself. -/
def merge (e : Event) (val : ExecVal) : ExecVal :=
  { count := val.count + 1, ts := e.now, ppid := e.ppid, uid := e.uidGid.setWidth 32,
    comm := e.comm, filename := readStrInto val.filename e.filename }

/-- The `new_val`: zeroed, then every field set. -/
def new (e : Event) : ExecVal :=
  ⟨1, e.now, e.ppid, e.uidGid.setWidth 32, e.comm, readStrInto (List.replicate 128 0) e.filename⟩

/-- `handle_sched_process_exec`: pid 0 is skipped. -/
def handleSchedProcessExec (execAccum : BpfMap U32 ExecVal) (e : Event) : BpfMap U32 ExecVal :=
  if tgidOf e.pidTgid = 0 then execAccum else upsert execAccum (tgidOf e.pidTgid) (merge e) (new e)

end Execsnoop

/-- `execsnoop.c`. -/
def execsnoop : AccumProgram (BpfMap U32 ExecVal) Execsnoop.Event U32 Execsnoop.Event ExecVal :=
  .singleShot Execsnoop.handleSchedProcessExec
    (fun e => if tgidOf e.pidTgid = 0 then none else some (tgidOf e.pidTgid, e))
    Execsnoop.merge Execsnoop.new fun m e => by
      dsimp only; unfold Execsnoop.handleSchedProcessExec; split_ifs <;> rfl

end XtopEbpf.Counters
