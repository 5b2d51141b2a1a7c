import XtopEbpf.Pairing

/-!
# The TCP programs

`sockio.c` attributes bytes and receive waits to (pid, remote address, remote
port); its `tcp_recvmsg` kprobe and kretprobe form a latency pair whose entry
carries the endpoint. `tcpconnlat.c` pairs `tcp_v4_connect` with the
`SYN_SENT -> ESTABLISHED` transition under the socket's address and has no
staleness ceiling. Each program's handlers act on a state record of its
maps; `bpf_get_current_pid_tgid()`, `bpf_ktime_get_ns()` and the kernel
reads are the event's fields.
-/

namespace XtopEbpf.Tcp

open Runtime Accumulate Pairing

/-! ## `sockio.c` -/

/-- `struct sockio_key`. -/
structure SockioKey where
  /-- `pid`. -/
  pid : U32
  /-- `daddr`. -/
  daddr : U32
  /-- `dport`, in host byte order. -/
  dport : U16
  /-- `pad`, zero from the designated initializer. -/
  pad : U16
  deriving DecidableEq, Repr

/-- `struct sockio_val`. -/
structure SockioVal where
  /-- `tx_bytes`. -/
  txBytes : U64
  /-- `rx_bytes`. -/
  rxBytes : U64
  /-- `recv_wait_ns`. -/
  recvWaitNs : U64
  /-- `recv_count`. -/
  recvCount : U32
  /-- `max_recv_ns`, clamped to 32 bits. -/
  maxRecvNs : U32
  deriving DecidableEq, Repr, Inhabited

/-- `struct recv_start`. -/
structure RecvStart where
  /-- `ts`. -/
  ts : U64
  /-- `daddr`. -/
  daddr : U32
  /-- `dport`, in host byte order. -/
  dport : U16
  /-- `pad`. -/
  pad : U16
  deriving DecidableEq, Repr

/-- The maps of `sockio.c`. -/
structure Sockio where
  /-- `sockio_accum`. -/
  sockioAccum : BpfMap SockioKey SockioVal
  /-- `recv_inflight`: pid to the pending receive. -/
  recvInflight : BpfMap U32 RecvStart

namespace Sockio

/-- The maps as the loader creates them. -/
def init : Sockio := ⟨.empty 16384, .empty 10240⟩

/-- What one invocation folds into `sockio_accum`. -/
inductive Sample where
  /-- Bytes sent. -/
  | tx (size : U64)
  /-- Bytes received. -/
  | rx (size : U64)
  /-- One receive wait. -/
  | recvWait (delta : U64)
  deriving DecidableEq, Repr

/-- The merge branches of `add_tx`, `add_rx` and `handle_tcp_recvmsg_exit`. -/
def merge : Sample → SockioVal → SockioVal
  | .tx size, val => { val with txBytes := val.txBytes + size }
  | .rx size, val => { val with rxBytes := val.rxBytes + size }
  | .recvWait delta, val =>
    { val with recvWaitNs := val.recvWaitNs + delta, recvCount := val.recvCount + 1,
               maxRecvNs := if clampU32 delta > val.maxRecvNs then clampU32 delta else val.maxRecvNs }

/-- The `new_val` each of them builds: its own fields set, the others zero. -/
def new : Sample → SockioVal
  | .tx size => ⟨size, 0, 0, 0, 0⟩
  | .rx size => ⟨0, size, 0, 0, 0⟩
  | .recvWait delta => ⟨0, 0, delta, 1, clampU32 delta⟩

/-- The key of the current pid's socket: `{pid, skc_daddr, bswap16(skc_dport)}`. -/
def keyOf (pid : U32) (sk : Sock) : SockioKey := ⟨pid, sk.skcDaddr, bswap16 sk.skcDport, 0⟩

/-- `add_tx` and `add_rx`: drop pid 0, then upsert the sample at the socket's key. -/
def addBytes (s : Sockio) (pidTgid : U64) (sk : Sock) (x : Sample) : Sockio :=
  if tgidOf pidTgid = 0 then s
  else { s with sockioAccum := upsert s.sockioAccum (keyOf (tgidOf pidTgid) sk) (merge x) (new x) }

/-- `add_tx`. -/
def addTx (s : Sockio) (pidTgid : U64) (sk : Sock) (size : U64) : Sockio :=
  addBytes s pidTgid sk (.tx size)

/-- `add_rx`. -/
def addRx (s : Sockio) (pidTgid : U64) (sk : Sock) (size : U64) : Sockio :=
  addBytes s pidTgid sk (.rx size)

/-- `handle_tcp_sendmsg`. -/
def handleTcpSendmsg (s : Sockio) (pidTgid : U64) (sk : Sock) (size : U64) : Sockio :=
  addTx s pidTgid sk size

/-- `handle_tcp_cleanup_rbuf`: `copied <= 0` is dropped, else `(__u64)copied` is added. -/
def handleTcpCleanupRbuf (s : Sockio) (pidTgid : U64) (sk : Sock) (copied : BitVec 32) : Sockio :=
  if copied.sle 0 then s else addRx s pidTgid sk (copied.signExtend 64)

/-- `handle_tcp_recvmsg_enter`: the pending receive remembers its endpoint. -/
def handleTcpRecvmsgEnter (s : Sockio) (pidTgid : U64) (sk : Sock) (now : U64) : Sockio :=
  if tgidOf pidTgid = 0 then s
  else { s with recvInflight := (s.recvInflight.updateElem (tgidOf pidTgid)
    ⟨now, sk.skcDaddr, bswap16 sk.skcDport, 0⟩ .any).2 }

/-- `handle_tcp_recvmsg_exit`: waits over 30 s are skipped; the key is the stored endpoint. -/
def handleTcpRecvmsgExit (s : Sockio) (pidTgid now : U64) : Sockio :=
  let pid := tgidOf pidTgid
  if pid = 0 then s else
    match s.recvInflight.lookupElem pid with
    | none => s
    | some rs =>
      let delta := now - rs.ts
      { sockioAccum := if delta > 30000000000 then s.sockioAccum else
          upsert s.sockioAccum ⟨pid, rs.daddr, rs.dport, 0⟩ (merge (.recvWait delta))
            (new (.recvWait delta)),
        recvInflight := s.recvInflight.deleteElem pid }

/-- Invocations of the receive-latency pair. -/
inductive RecvEvent where
  /-- The kprobe on `tcp_recvmsg`. -/
  | recvEnter (pidTgid : U64) (sk : Sock) (now : U64)
  /-- The kretprobe on `tcp_recvmsg`. -/
  | recvExit (pidTgid now : U64)

/-- One invocation of the receive-latency pair. -/
def recvStep (s : Sockio) : RecvEvent → Sockio
  | .recvEnter pidTgid sk now => s.handleTcpRecvmsgEnter pidTgid sk now
  | .recvExit pidTgid now => s.handleTcpRecvmsgExit pidTgid now

/-- The receive pair's ops: a begin with the endpoint, an end. -/
def recvOps : RecvEvent → List (PairOp U32 RecvStart Unit)
  | .recvEnter pidTgid sk now =>
    if tgidOf pidTgid = 0 then [] else [.begin (tgidOf pidTgid) ⟨now, sk.skcDaddr, bswap16 sk.skcDport, 0⟩]
  | .recvExit pidTgid now => if tgidOf pidTgid = 0 then [] else [.finish (tgidOf pidTgid) now ()]

/-- What follows the delete in `handle_tcp_recvmsg_exit`. -/
def recvTail (c : Completion U32 RecvStart Unit) : Option (SockioKey × Sample) :=
  if c.now - c.entry.ts > 30000000000 then none
  else some (⟨c.key, c.entry.daddr, c.entry.dport, 0⟩, .recvWait (c.now - c.entry.ts))

end Sockio

/-- The `tcp_recvmsg` pair of `sockio.c` as a latency program. -/
def sockioRecv : LatencyProgram Sockio Sockio.RecvEvent U32 RecvStart Unit SockioKey Sockio.Sample
    SockioVal where
  start := Sockio.recvInflight
  accum := Sockio.sockioAccum
  step := Sockio.recvStep
  ops := Sockio.recvOps
  live _ := true
  time
    | .recvEnter _ _ now | .recvExit _ now => now
  stamp := RecvStart.ts
  tail := Sockio.recvTail
  merge := Sockio.merge
  new := Sockio.new
  ops_time e op hop := by
    cases e <;> simp only [Sockio.recvOps] at hop <;> split_ifs at hop <;>
      simp_all [PairOp.time]
  live_of_stamp _ _ := rfl
  step_start s e := by
    cases e with
    | recvEnter p sk t =>
      simp only [Sockio.recvStep, Sockio.handleTcpRecvmsgEnter, Sockio.recvOps]
      split_ifs <;> rfl
    | recvExit p t =>
      simp only [Sockio.recvStep, Sockio.handleTcpRecvmsgExit, Sockio.recvOps]
      split_ifs
      · rfl
      · cases h : s.recvInflight.lookupElem (tgidOf p) <;> simp [pairRun, pairStep, h]
  step_accum s e := by
    cases e with
    | recvEnter p sk t =>
      simp only [Sockio.recvStep, Sockio.handleTcpRecvmsgEnter, Sockio.recvOps]
      split_ifs <;> rfl
    | recvExit p t =>
      simp only [Sockio.recvStep, Sockio.handleTcpRecvmsgExit, Sockio.recvOps]
      split_ifs
      · rfl
      · cases h : s.recvInflight.lookupElem (tgidOf p) with
        | none => simp [pairRun, pairYield, h]
        | some rs =>
          simp only [pairRun, pairYield, h, if_true, Option.toList_some, List.append_nil,
            List.filterMap_cons, List.filterMap_nil, Sockio.recvTail]
          split_ifs <;> rfl

namespace Sockio

/-- Invocations of `sockio.c`. -/
inductive Event where
  /-- The kprobe on `tcp_sendmsg`, with its `size`. -/
  | tcpSendmsg (pidTgid : U64) (sk : Sock) (size : U64)
  /-- The kprobe on `tcp_cleanup_rbuf`, with its `int copied`. -/
  | tcpCleanupRbuf (pidTgid : U64) (sk : Sock) (copied : BitVec 32)
  /-- One of the `tcp_recvmsg` pair. -/
  | recv (e : RecvEvent)

/-- One invocation. -/
def step (s : Sockio) : Event → Sockio
  | .tcpSendmsg pidTgid sk size => s.handleTcpSendmsg pidTgid sk size
  | .tcpCleanupRbuf pidTgid sk copied => s.handleTcpCleanupRbuf pidTgid sk copied
  | .recv e => s.recvStep e

end Sockio

/-- `sockio.c` seen through `sockio_accum`: bytes sent and received, and receive waits. -/
def sockio : AccumProgram Sockio Sockio.Event SockioKey Sockio.Sample SockioVal where
  accum := Sockio.sockioAccum
  step := Sockio.step
  admitted s
    | .tcpSendmsg pidTgid sk size =>
      if tgidOf pidTgid = 0 then [] else [(Sockio.keyOf (tgidOf pidTgid) sk, .tx size)]
    | .tcpCleanupRbuf pidTgid sk copied =>
      if copied.sle 0 then [] else if tgidOf pidTgid = 0 then []
      else [(Sockio.keyOf (tgidOf pidTgid) sk, .rx (copied.signExtend 64))]
    | .recv e => sockioRecv.toAccumProgram.admitted s e
  merge := Sockio.merge
  new := Sockio.new
  step_accum s e := by
    cases e with
    | tcpSendmsg p sk size =>
      simp only [Sockio.step, Sockio.handleTcpSendmsg, Sockio.addTx, Sockio.addBytes]
      split_ifs <;> rfl
    | tcpCleanupRbuf p sk c =>
      simp only [Sockio.step, Sockio.handleTcpCleanupRbuf, Sockio.addRx, Sockio.addBytes]
      split_ifs <;> rfl
    | recv e => exact sockioRecv.step_accum s e

/-! ## `tcpconnlat.c` -/

/-- `struct conn_start`. -/
structure ConnStart where
  /-- `ts`. -/
  ts : U64
  /-- `pid` of the connecting process. -/
  pid : U32
  deriving DecidableEq, Repr

/-- `struct connlat_val`. -/
structure ConnlatVal where
  /-- `total_ns`. -/
  totalNs : U64
  /-- `count`. -/
  count : U32
  /-- `max_ns`, clamped to 32 bits. -/
  maxNs : U32
  /-- `last_pid`. -/
  lastPid : U32
  /-- `daddr` of the last connection. -/
  daddr : U32
  deriving DecidableEq, Repr, Inhabited

/-- The maps of `tcpconnlat.c`. -/
structure Tcpconnlat where
  /-- `conn_inflight`: socket address to the pending connect. -/
  connInflight : BpfMap U64 ConnStart
  /-- `connlat_accum`: pid to connect latency totals. -/
  connlatAccum : BpfMap U32 ConnlatVal

namespace Tcpconnlat

/-- The maps as the loader creates them. -/
def init : Tcpconnlat := ⟨.empty 10240, .empty 10240⟩

/-- Invocations of `tcpconnlat.c`. -/
inductive Event where
  /-- The kprobe on `tcp_v4_connect`, with the socket's address. -/
  | tcpV4Connect (pidTgid : U64) (sk : U64) (now : U64)
  /-- `inet_sock_set_state`, with the 4 `daddr` bytes read from the context. -/
  | setState (skaddr : U64) (oldstate newstate : U32) (daddr : U32) (now : U64)

/-- One connection's sample: its latency, its pid and its remote address. -/
structure Sample where
  /-- `delta`. -/
  delta : U64
  /-- `start->pid`. -/
  pid : U32
  /-- The `daddr` read at the transition. -/
  daddr : U32
  deriving DecidableEq, Repr

/-- The merge branch of `handle_set_state`. -/
def merge (x : Sample) (val : ConnlatVal) : ConnlatVal :=
  { totalNs := val.totalNs + x.delta, count := val.count + 1,
    maxNs := if clampU32 x.delta > val.maxNs then clampU32 x.delta else val.maxNs,
    lastPid := x.pid, daddr := x.daddr }

/-- The `new_val` of `handle_set_state`. -/
def new (x : Sample) : ConnlatVal := ⟨x.delta, 1, clampU32 x.delta, x.pid, x.daddr⟩

/-- `handle_tcp_v4_connect`. -/
def handleTcpV4Connect (s : Tcpconnlat) (pidTgid sk now : U64) : Tcpconnlat :=
  if tgidOf pidTgid = 0 then s
  else { s with connInflight := (s.connInflight.updateElem sk ⟨now, tgidOf pidTgid⟩ .any).2 }

/-- `handle_set_state`: only `SYN_SENT` (2) to `ESTABLISHED` (1); no ceiling on the latency. -/
def handleSetState (s : Tcpconnlat) (skaddr : U64) (oldstate newstate daddr : U32) (now : U64) :
    Tcpconnlat :=
  if oldstate ≠ 2 ∨ newstate ≠ 1 then s else
    match s.connInflight.lookupElem skaddr with
    | none => s
    | some start =>
      let x : Sample := ⟨now - start.ts, start.pid, daddr⟩
      { connInflight := s.connInflight.deleteElem skaddr,
        connlatAccum := upsert s.connlatAccum start.pid (merge x) (new x) }

/-- One invocation. -/
def step (s : Tcpconnlat) : Event → Tcpconnlat
  | .tcpV4Connect pidTgid sk now => s.handleTcpV4Connect pidTgid sk now
  | .setState skaddr oldstate newstate daddr now => s.handleSetState skaddr oldstate newstate daddr now

/-- The connect as a begin on the socket; the transition as its end. -/
def ops : Event → List (PairOp U64 ConnStart U32)
  | .tcpV4Connect pidTgid sk now =>
    if tgidOf pidTgid = 0 then [] else [.begin sk ⟨now, tgidOf pidTgid⟩]
  | .setState skaddr oldstate newstate daddr now =>
    if oldstate ≠ 2 ∨ newstate ≠ 1 then [] else [.finish skaddr now daddr]

end Tcpconnlat

/-- `tcpconnlat.c` as a latency program; its tail keeps every completion. -/
def tcpconnlat : LatencyProgram Tcpconnlat Tcpconnlat.Event U64 ConnStart U32 U32
    Tcpconnlat.Sample ConnlatVal where
  start := Tcpconnlat.connInflight
  accum := Tcpconnlat.connlatAccum
  step := Tcpconnlat.step
  ops := Tcpconnlat.ops
  live _ := true
  time
    | .tcpV4Connect _ _ now | .setState _ _ _ _ now => now
  stamp := ConnStart.ts
  tail c := some (c.entry.pid, ⟨c.now - c.entry.ts, c.entry.pid, c.info⟩)
  merge := Tcpconnlat.merge
  new := Tcpconnlat.new
  ops_time e op hop := by
    cases e <;> simp only [Tcpconnlat.ops] at hop <;> split_ifs at hop <;>
      simp_all [PairOp.time]
  live_of_stamp _ _ := rfl
  step_start s e := by
    cases e with
    | tcpV4Connect p sk t =>
      simp only [Tcpconnlat.step, Tcpconnlat.handleTcpV4Connect, Tcpconnlat.ops]
      split_ifs <;> rfl
    | setState a o n d t =>
      simp only [Tcpconnlat.step, Tcpconnlat.handleSetState, Tcpconnlat.ops]
      split_ifs
      · rfl
      · cases h : s.connInflight.lookupElem a <;> simp [pairRun, pairStep, h]
  step_accum s e := by
    cases e with
    | tcpV4Connect p sk t =>
      simp only [Tcpconnlat.step, Tcpconnlat.handleTcpV4Connect, Tcpconnlat.ops]
      split_ifs <;> rfl
    | setState a o n d t =>
      simp only [Tcpconnlat.step, Tcpconnlat.handleSetState, Tcpconnlat.ops]
      split_ifs
      · rfl
      · cases h : s.connInflight.lookupElem a <;> simp [pairRun, pairYield, upsertSample, h]

end XtopEbpf.Tcp
