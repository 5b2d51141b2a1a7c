import XtopEbpf.Records

/-!
# `tcpconnlat.c` and `sockstate.c` on one tracepoint

Both programs attach to `inet_sock_set_state`, so every transition of a socket reaches both.
`sockstate.c` counts each transition under its two states cut to 16 bits; `tcpconnlat.c`
takes only `SYN_SENT` (2) to `ESTABLISHED` (1), and hands a latency on when the socket's
connect left an entry. Each latency it counts is one such transition, and each record counts
a segment of its process's latencies, so summed over its per-process records the connections
`tcpconnlat.c` counts never pass the `2 → 1` count of `sockstate.c`: whatever the order of
connects and transitions, with `tcpconnlat.c`'s tables full or not, as long as `state_accum`
drops no transition and its 64-bit count does not wrap.
-/

namespace XtopEbpf.SetState

open Runtime Accumulate Summary Pairing Tcp Counters Records

/-- The transitions of a run of `tcpconnlat.c`'s events, as `sockstate.c` sees them from the
same tracepoint. -/
def transitions : List Tcpconnlat.Event → List (U32 × U32) :=
  List.filterMap fun
    | .setState _ oldstate newstate _ _ => some (oldstate, newstate)
    | .tcpV4Connect .. => none

/-- A `SYN_SENT` to `ESTABLISHED` transition. -/
def establishes : Tcpconnlat.Event → Bool
  | .setState _ oldstate newstate _ _ => oldstate = 2 && newstate = 1
  | .tcpV4Connect .. => false

/-- `handle_set_state` ends a pairing only at a `SYN_SENT` to `ESTABLISHED` transition, and the
connect kprobe ends none. -/
theorem countP_ends_opsOf : ∀ es : List Tcpconnlat.Event,
    (tcpconnlat.opsOf es).countP (fun op => op.entry?.isNone) = es.countP establishes
  | [] => rfl
  | e :: es => by
    rw [LatencyProgram.opsOf, List.flatMap_cons, List.countP_append, ← LatencyProgram.opsOf,
      countP_ends_opsOf es, List.countP_cons]
    cases e with
    | tcpV4Connect p sk now =>
      by_cases hp : tgidOf p = 0 <;> simp [tcpconnlat, Tcpconnlat.ops, establishes, hp, PairOp.entry?]
    | setState a o n d now =>
      simp only [tcpconnlat, Tcpconnlat.ops, establishes]
      split_ifs <;> simp_all [PairOp.entry?]
      omega

/-- Each `SYN_SENT` to `ESTABLISHED` transition is one that `sockstate.c` files under the key
`(2, 1)`. -/
theorem countP_establish_le : ∀ es : List Tcpconnlat.Event,
    es.countP establishes ≤ (transitions es).countP fun t => Sockstate.keyOf t.1 t.2 = ⟨2, 1⟩
  | [] => le_rfl
  | .tcpV4Connect p sk now :: es => by
    simpa [transitions, establishes] using countP_establish_le es
  | .setState a o n d now :: es => by
    have ih := countP_establish_le es
    simp only [transitions, List.filterMap_cons, List.countP_cons, establishes] at ih ⊢
    split_ifs with h₁ h₂ <;> try omega
    simp only [Bool.and_eq_true, decide_eq_true_eq] at h₁
    obtain ⟨rfl, rfl⟩ := h₁
    exact absurd rfl h₂

/-- `sockstate.c`'s samples under `(2, 1)` are the transitions it files there. -/
theorem length_samplesOf_established (ts : List (U32 × U32)) :
    (sockstate.samplesOf Sockstate.init ts ⟨2, 1⟩).length =
      ts.countP fun t => Sockstate.keyOf t.1 t.2 = ⟨2, 1⟩ := by
  rw [AccumProgram.samplesOf, List.length_map, ← List.countP_eq_length_filter, sockstate,
    AccumProgram.samples_singleShot, List.countP_filterMap]
  rfl

/-- Summed over `connlat_accum`'s per-process records, the connections `tcpconnlat.c` counts
never pass the `SYN_SENT` to `ESTABLISHED` count `sockstate.c` keeps from the same transitions,
for every run, full `tcpconnlat.c` tables included, while `state_accum` drops no transition and
its count stays below `2^64`. -/
theorem connects_counted_within_transitions (es : List Tcpconnlat.Event)
    (hnd : NoDrop countMerge countNew Sockstate.init
      (sockstate.samples Sockstate.init (transitions es)))
    (hwrap : es.length < 2 ^ 64) :
    recordSum (·.count.toNat) (tcpconnlat.run Tcpconnlat.init es).connlatAccum ≤
      ((sockstate.run Sockstate.init (transitions es)).lookupElem ⟨2, 1⟩).elim 0 (·.count.toNat) := by
  have hconn : recordSum (·.count.toNat) (tcpconnlat.run Tcpconnlat.init es).connlatAccum ≤
      (sockstate.samplesOf Sockstate.init (transitions es) ⟨2, 1⟩).length :=
    calc recordSum (·.count.toNat) (tcpconnlat.run Tcpconnlat.init es).connlatAccum
        ≤ (tcpconnlat.toAccumProgram.samples Tcpconnlat.init es).length :=
          recordSum_le_samples tcpconnlat.toAccumProgram Tcpconnlat.init
            (BpfMap.lookupElem_empty _) connlatRules_respected (w := 32)
            (by simp [connlatRules, countRule]) es
      _ ≤ (tcpconnlat.completions Tcpconnlat.init es).length := by
          rw [LatencyProgram.samples_toAccumProgram]
          exact List.length_filterMap_le _ _
      _ ≤ es.countP establishes :=
          countP_ends_opsOf es ▸ length_pairRun_le _ _ _
      _ ≤ _ := length_samplesOf_established _ ▸ countP_establish_le es
  have hlen : (sockstate.samplesOf Sockstate.init (transitions es) ⟨2, 1⟩).length < 2 ^ 64 :=
    calc _ ≤ (transitions es).length := length_samplesOf_established _ ▸ List.countP_le_length _
      _ ≤ es.length := List.length_filterMap_le _ _
      _ < 2 ^ 64 := hwrap
  obtain ⟨hnone, hsome⟩ := summaryLaw sockstate Sockstate.init (BpfMap.lookupElem_empty _)
    countRules_respected (transitions es) hnd ⟨2, 1⟩
  cases hr : (sockstate.run Sockstate.init (transitions es)).lookupElem ⟨2, 1⟩ with
  | none =>
    have hS := hnone.mp hr
    rw [hS] at hconn
    exact hconn
  | some r =>
    have hcount : r.count.toNat =
        (sockstate.samplesOf Sockstate.init (transitions es) ⟨2, 1⟩).length % 2 ^ 64 := by
      simpa [Rule.Holds, countRule] using hsome r hr (countRule 64 (·.count.toNat)) (by simp [countRules])
    rw [Option.elim_some, hcount, Nat.mod_eq_of_lt hlen]
    exact hconn

/-- Process 100 connects socket `0xffff1000` at 1000 ns and the socket is established at
5000 ns. -/
def connectThenEstablish : List Tcpconnlat.Event :=
  [.tcpV4Connect 0x0000006400000064 0xffff1000 1000, .setState 0xffff1000 2 1 0x0100007f 5000]

/-- One connection, counted once by each program. -/
theorem one_connection_within_one_transition :
    (NoDrop countMerge countNew Sockstate.init
        (sockstate.samples Sockstate.init (transitions connectThenEstablish)) ∧
      connectThenEstablish.length < 2 ^ 64) ∧
    recordSum (·.count.toNat) (tcpconnlat.run Tcpconnlat.init connectThenEstablish).connlatAccum ≤
      ((sockstate.run Sockstate.init (transitions connectThenEstablish)).lookupElem ⟨2, 1⟩).elim 0
        (·.count.toNat) :=
  have hnd : NoDrop countMerge countNew Sockstate.init
      (sockstate.samples Sockstate.init (transitions connectThenEstablish)) := by decide
  ⟨⟨hnd, by decide⟩, connects_counted_within_transitions _ hnd (by decide)⟩

end XtopEbpf.SetState
