import XtopEbpf.Runtime
import XtopEbpf.Accumulate
import XtopEbpf.Summary
import XtopEbpf.Pairing
import XtopEbpf.Watchdog
import XtopEbpf.Tcp
import XtopEbpf.BlockIo
import XtopEbpf.Counters
import XtopEbpf.PairingRuns
import XtopEbpf.Records
import XtopEbpf.Capacity
import XtopEbpf.Descriptive
import XtopEbpf.Keys
import XtopEbpf.Atomic
import XtopEbpf.AtomicRuns
import XtopEbpf.ByteCounters
import XtopEbpf.Reads
import XtopEbpf.PairingConcurrent
import XtopEbpf.HandlerConcurrent
import XtopEbpf.SetState
