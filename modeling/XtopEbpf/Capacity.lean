import XtopEbpf.Summary
import XtopEbpf.Watchdog
import XtopEbpf.Tcp
import XtopEbpf.BlockIo
import XtopEbpf.Counters

/-!
# Full tables

Every map is created with its `max_entries` and no run changes that bound,
so no table ever holds more keys. An accumulation table only ever gains
records through a `BPF_NOEXIST` insert and changes them only through the
merge branch: a sample whose key is absent from a full table is dropped and
leaves every record as it was, a sample whose key is present is merged as it
would be below capacity, and no record is deleted or rebuilt. A latency
pair's pairing table evolves the same whether or not the sample reached its
accumulation table. `oomkill.c`, which overwrites with `BPF_ANY` and counts
nothing, is bounded too.
-/

namespace XtopEbpf.Capacity

open Runtime Accumulate Summary Pairing Watchdog Tcp BlockIo Counters

/-- No invocation of `sockio.c` changes `recv_inflight`'s capacity. -/
theorem maxEntries_recvInflight_step (s : Sockio) (e : Sockio.Event) :
    (Sockio.step s e).recvInflight.maxEntries = s.recvInflight.maxEntries := by
  cases e with
  | tcpSendmsg p sk size =>
    simp only [Sockio.step, Sockio.handleTcpSendmsg, Sockio.addTx, Sockio.addBytes]
    split_ifs <;> rfl
  | tcpCleanupRbuf p sk c =>
    simp only [Sockio.step, Sockio.handleTcpCleanupRbuf, Sockio.addRx, Sockio.addBytes]
    split_ifs <;> rfl
  | recv e => exact (congrArg BpfMap.maxEntries (sockioRecv.step_start s e)).trans (maxEntries_pairRun _ _ _)

/-- No run of `sockio.c` changes `recv_inflight`'s capacity. -/
theorem maxEntries_recvInflight_run : ∀ (s : Sockio) (es : List Sockio.Event),
    (sockio.run s es).recvInflight.maxEntries = s.recvInflight.maxEntries
  | _, [] => rfl
  | s, e :: es => (maxEntries_recvInflight_run (Sockio.step s e) es).trans (maxEntries_recvInflight_step s e)

/-- Every accumulation and pairing table of the collector stays within its `max_entries`,
a full table shuts out new keys, and a record once inserted is only merged into. -/
theorem tables_bounded_and_records_kept :
    CapacityLaw directReclaim.toAccumProgram DirectReclaim.init 10240 ∧
      directReclaim.PairingCapacity DirectReclaim.init 10240 ∧
    CapacityLaw lockwait.toAccumProgram Lockwait.init 10240 ∧
      lockwait.PairingCapacity Lockwait.init 10240 ∧
    CapacityLaw pgfault.toAccumProgram Pgfault.init 10240 ∧
      pgfault.PairingCapacity Pgfault.init 10240 ∧
    CapacityLaw runqlat.toAccumProgram Runqlat.init 10240 ∧
      runqlat.PairingCapacity Runqlat.init 10240 ∧
    CapacityLaw syscallDissect.toAccumProgram SyscallDissect.init 32768 ∧
      syscallDissect.PairingCapacity SyscallDissect.init 10240 ∧
    CapacityLaw offcpu.toAccumProgram Offcpu.init 10240 ∧
      offcpu.PairingCapacity Offcpu.init 10240 ∧
    CapacityLaw sockio Sockio.init 16384 ∧ sockioRecv.PairingCapacity Sockio.init 10240 ∧
      (∀ es, (sockio.run Sockio.init es).recvInflight.size ≤ 10240) ∧
    CapacityLaw tcpconnlat.toAccumProgram Tcpconnlat.init 10240 ∧
      tcpconnlat.PairingCapacity Tcpconnlat.init 10240 ∧
    CapacityLaw iolatency.toAccumProgram Iolatency.init 10240 ∧
      iolatency.PairingCapacity Iolatency.init 10240 ∧
    CapacityLaw cgthrottle Cgthrottle.init 1024 ∧
    CapacityLaw kfreeskb Kfreeskb.init 256 ∧
    CapacityLaw sockstate Sockstate.init 256 ∧
    CapacityLaw wbstall Wbstall.init 10240 ∧
    CapacityLaw swapevict Swapevict.init 10240 ∧
    CapacityLaw tcpreset Tcpreset.init 10240 ∧
    CapacityLaw tcpretrans Tcpretrans.init 10240 ∧
    CapacityLaw netthroughput Netthroughput.init 10240 ∧
    CapacityLaw tcprtt Tcprtt.init 10240 ∧
    CapacityLaw ptracedetect Ptracedetect.init 256 ∧
    CapacityLaw modload Modload.init 256 ∧
    CapacityLaw execsnoop Execsnoop.init 10240 ∧
    ∀ es, (Oomkill.run Oomkill.init es).size ≤ 1024 :=
  ⟨capacityLaw _ _, directReclaim.pairingCapacity _, capacityLaw _ _, lockwait.pairingCapacity _,
    capacityLaw _ _, pgfault.pairingCapacity _, capacityLaw _ _, runqlat.pairingCapacity _,
    capacityLaw _ _, syscallDissect.pairingCapacity _, capacityLaw _ _, offcpu.pairingCapacity _,
    capacityLaw _ _, sockioRecv.pairingCapacity _,
    fun es => (BpfMap.size_le_maxEntries _).trans_eq (maxEntries_recvInflight_run Sockio.init es),
    capacityLaw _ _, tcpconnlat.pairingCapacity _, capacityLaw _ _, iolatency.pairingCapacity _,
    capacityLaw _ _, capacityLaw _ _, capacityLaw _ _, capacityLaw _ _, capacityLaw _ _,
    capacityLaw _ _, capacityLaw _ _, capacityLaw _ _, capacityLaw _ _, capacityLaw _ _,
    capacityLaw _ _, capacityLaw _ _,
    fun es => (BpfMap.size_le_maxEntries _).trans_eq (Oomkill.maxEntries_run Oomkill.init es)⟩

end XtopEbpf.Capacity
