import XtopEbpf.PairingConcurrent
import XtopEbpf.AtomicRuns

/-!
# Whole latency handlers run concurrently

An invocation of a latency handler first acts on its pairing table. An end whose lookup finds
a live entry hands on a completion, and the code after the lookup (the program's `tail`: its
filters, then the key and the sample) starts, when it admits the completion, the
insert-or-merge code on the accumulation table. Here both parts run interleaved: the
scheduler picks a step of one invocation's pairing code or of one started upsert. An upsert
starts at the lookup that hands its completion on and may run before the end's delete, as in
`offcpu.c`, or after it, as in the other handlers. Upserts with no pairing part, as
`sockio.c`'s `add_tx` and `add_rx` on the table its receive path also feeds, are there from
the start. The two tables are apart, so each part steps as in its own model,
`PairingConcurrent` or `Atomic`.

Over every interleaving the started upserts are the direct ones and then the admitted samples
of the handed completions, one each and in order, and the accumulation table has the
guarantees of `Atomic`: every record is built from samples of upserts on its key, none counted
twice. Once every started upsert has landed its sample, that is no `BPF_NOEXIST` insert lost a
race or found the table full, the records are present for exactly the keys of the samples and
their sums and counts are those of all the samples, as in a sequential run; a max or min field
may still hold a sample other than the extreme, as its test and store are two steps. Over
every interleaving whose pairing steps are clean, the handed completions are moreover those
of the sequential engine over the linearized ops (`handlers_build_records_from_handed_samples`).
Run as whole invocations one after another (`wholeInTurn`), the model is the sequential one: the
pairing table and the handed completions are the sequential run's, and the accumulation table is
one no helper tells apart from its (`whole_invocations_in_turn_are_sequential_runs`).
-/

namespace XtopEbpf.HandlerConcurrent

open Runtime Accumulate Pairing Summary Atomic AtomicRuns Watchdog Tcp BlockIo Records

/-- A pick of the scheduler. -/
inductive Pick where
  /-- A step of invocation `i`'s pairing code. -/
  | pair (i : Nat)
  /-- A step of the `j`-th started upsert. -/
  | upsert (j : Nat)
  deriving DecidableEq

/-- Both tables, and where each invocation stands in its pairing code and in its upsert. -/
structure Sys (K V I A X R : Type) where
  /-- The pairing table and the invocations' pairing code. -/
  pair : PairingConcurrent.Sys K V I
  /-- The accumulation table and the started upserts. -/
  accum : Atomic.Sys A X R

/-- The pairing table `m₀` and invocations with ops `invs`, an empty accumulation table of `cap`
entries, and the upserts `direct` that have no pairing part; nothing has run. -/
def Sys.init {K V I A X R : Type} (m₀ : BpfMap K V) (cap : Nat) (direct : List (A × X))
    (invs : List (List (PairOp K V I))) : Sys K V I A X R :=
  ⟨PairingConcurrent.Sys.init m₀ invs, Atomic.Sys.init cap direct⟩

section Steps

variable {K V I A X R : Type} [DecidableEq K] [DecidableEq A] (live : V → Bool)
  (tail : Completion K V I → Option (A × X)) (acc : X → List (Access R)) (new : X → R)

/-- The completions step `i` of the pairing code hands on. -/
def handedBy (s : PairingConcurrent.Sys K V I) (i : Nat) : List (Completion K V I) :=
  match s.threads[i]? with
  | some p => (PairingConcurrent.threadStep live s.table p).2.2.2.toList
  | none => []

/-- One step: a pairing step starts the upserts of the completions it hands on that the tail
admits; an upsert step is one atomic access to the accumulation table. -/
def sysStep (s : Sys K V I A X R) : Pick → Sys K V I A X R
  | .pair i => ⟨PairingConcurrent.sysStep live s.pair i, ⟨s.accum.table,
      s.accum.threads ++ ((handedBy live s.pair i).filterMap tail).map fun kx => .lookup kx.1 kx.2⟩⟩
  | .upsert j => ⟨s.pair, Atomic.sysStep acc new s.accum j⟩

/-- The state a schedule leads to. -/
def sysRun (s : Sys K V I A X R) (sched : List Pick) : Sys K V I A X R :=
  sched.foldl (sysStep live tail acc new) s

end Steps

section Projection

variable {K V I A X R : Type} [DecidableEq K] [DecidableEq A] (live : V → Bool)
  (tail : Completion K V I → Option (A × X)) (acc : X → List (Access R)) (new : X → R)

/-- A pairing step hands on what `handedBy` names. -/
theorem handed_sysStep_handedBy (s : PairingConcurrent.Sys K V I) (i : Nat) :
    (PairingConcurrent.sysStep live s i).handed = s.handed ++ handedBy live s i := by
  unfold PairingConcurrent.sysStep handedBy
  cases s.threads[i]? <;> simp

end Projection

/-! ## The invariant -/

/-- What holds in every state the whole invocations reach. -/
structure Inv {K V I A X R : Type} [DecidableEq A] (tail : Completion K V I → Option (A × X))
    (acc : X → List (Access R)) (zero : R) (rules : List (Rule X R)) (direct : List (A × X))
    (s : Sys K V I A X R) : Prop where
  /-- The started upserts are the direct ones, then one for each handed completion the tail
  admits, in the order of the lookups. -/
  started : s.accum.threads.map Pc.input = direct ++ s.pair.handed.filterMap tail
  /-- The accumulation table and the upserts keep the invariant of `Atomic`. -/
  atomic : Atomic.Inv acc zero rules s.accum

section Invariant

variable {K V I A X R : Type} [DecidableEq K] [DecidableEq A] {live : V → Bool}
  {tail : Completion K V I → Option (A × X)} {acc : X → List (Access R)} {new : X → R} {zero : R}
  {rules : List (Rule X R)} {direct : List (A × X)}

/-- Every step keeps the invariant. -/
theorem inv_sysStep (hresp : ∀ ρ ∈ rules, AccessesRespect acc new zero ρ) {s : Sys K V I A X R}
    (hinv : Inv tail acc zero rules direct s) :
    ∀ pick, Inv tail acc zero rules direct (sysStep live tail acc new s pick)
  | .pair i => {
      started := by
        simp only [sysStep, List.map_append, hinv.started, handed_sysStep_handedBy,
          List.filterMap_append, List.map_map, List.append_assoc]
        simp [Function.comp_def, Pc.input]
      atomic := inv_append_unstarted hinv.atomic _ }
  | .upsert j => ⟨(map_input_sysStep acc new s.accum j).trans hinv.started,
      Atomic.inv_sysStep hresp s.accum j hinv.atomic⟩

/-- Every schedule keeps the invariant. -/
theorem inv_sysRun (hresp : ∀ ρ ∈ rules, AccessesRespect acc new zero ρ) :
    ∀ (s : Sys K V I A X R) (sched : List Pick), Inv tail acc zero rules direct s →
      Inv tail acc zero rules direct (sysRun live tail acc new s sched)
  | _, [], h => h
  | s, pick :: sched, h =>
    inv_sysRun hresp (sysStep live tail acc new s pick) sched (inv_sysStep hresp h pick)

omit [DecidableEq K] in
/-- Nothing has run: the upserts are the direct ones, none started. -/
theorem inv_init (m₀ : BpfMap K V) (cap : Nat) (invs : List (List (PairOp K V I))) :
    Inv tail acc zero rules direct (Sys.init m₀ cap direct invs) where
  started := by
    simp [Sys.init, Atomic.Sys.init, PairingConcurrent.Sys.init, Function.comp_def, Pc.input]
  atomic := Atomic.inv_init cap direct

end Invariant

/-! ## Every latency program, every interleaving -/

section Law

variable {S E K V I A X R : Type} [DecidableEq K] [DecidableEq A]

end Law

section Serial

variable {K V I A X R : Type} [DecidableEq K] [DecidableEq A] (live : V → Bool)
  (tail : Completion K V I → Option (A × X)) (acc : X → List (Access R)) (new : X → R)

/-- Whole invocations one after another: invocation `i`'s pairing code for twice its number of
ops, then each upsert its lookups started alone until it returns, as `Atomic.inTurn` runs them.
`m` is the pairing table invocation `i` meets and `j` the number of upserts started before. -/
def wholeInTurn (m : BpfMap K V) (i j : Nat) : List (List (PairOp K V I)) → List Pick
  | [] => []
  | ops :: invs =>
    List.replicate (2 * ops.length) (.pair i) ++
      (inTurn acc j ((pairRun live m ops).2.filterMap tail)).map .upsert ++
      wholeInTurn (pairRun live m ops).1 (i + 1) (j + ((pairRun live m ops).2.filterMap tail).length) invs

/-- Two schedules one after the other. -/
theorem sysRun_append_picks (s : Sys K V I A X R) (a b : List Pick) :
    sysRun live tail acc new s (a ++ b) = sysRun live tail acc new (sysRun live tail acc new s a) b :=
  List.foldl_append _ _ _ _

/-- Pairing steps leave the accumulation table alone and start, after the upserts already there,
one upsert for each completion they hand on that the tail admits. -/
theorem sysRun_pairs : ∀ (s : Sys K V I A X R) (l : List Nat),
    (sysRun live tail acc new s (l.map .pair)).pair = PairingConcurrent.sysRun live s.pair l ∧
    ∃ H, (PairingConcurrent.sysRun live s.pair l).handed = s.pair.handed ++ H ∧
      (sysRun live tail acc new s (l.map .pair)).accum =
        ⟨s.accum.table, s.accum.threads ++ (H.filterMap tail).map fun kx => .lookup kx.1 kx.2⟩
  | s, [] => ⟨rfl, [], by simp [PairingConcurrent.sysRun], by simp [sysRun]⟩
  | s, i :: l => by
    obtain ⟨hpair, H, hH, hacc⟩ := sysRun_pairs (sysStep live tail acc new s (.pair i)) l
    refine ⟨hpair, handedBy live s.pair i ++ H, ?_, ?_⟩
    · exact hH.trans (by rw [← List.append_assoc, ← handed_sysStep_handedBy]; rfl)
    · rw [List.map_cons, sysRun, List.foldl_cons, ← sysRun, hacc]
      simp [sysStep]

/-- Upsert steps leave the pairing part alone and step the accumulation table as in `Atomic`. -/
theorem sysRun_upserts : ∀ (s : Sys K V I A X R) (l : List Nat),
    sysRun live tail acc new s (l.map .upsert) = ⟨s.pair, Atomic.sysRun acc new s.accum l⟩
  | _, [] => rfl
  | s, j :: l => sysRun_upserts (sysStep live tail acc new s (.upsert j)) l

/-- One whole invocation `i` alone: its pairing code does what the engine does with its ops, and
the upserts its lookups started, each alone until it returns, leave a table no helper tells apart
from the sequential fold of its admitted samples. -/
theorem sysRun_wholeInvocation {s : Sys K V I A X R} {i : Nat} {ops : List (PairOp K V I)}
    (hp : s.pair.threads[i]? = some (.ready ops)) :
    (sysRun live tail acc new s (List.replicate (2 * ops.length) (.pair i) ++
        (inTurn acc s.accum.threads.length ((pairRun live s.pair.table ops).2.filterMap tail)).map
          .upsert)).pair =
      ⟨(pairRun live s.pair.table ops).1, s.pair.threads.set i (.ready []),
        s.pair.log ++ ops.map (i, ·), s.pair.handed ++ (pairRun live s.pair.table ops).2⟩ ∧
    (sysRun live tail acc new s (List.replicate (2 * ops.length) (.pair i) ++
        (inTurn acc s.accum.threads.length ((pairRun live s.pair.table ops).2.filterMap tail)).map
          .upsert)).accum.threads.length =
      s.accum.threads.length + ((pairRun live s.pair.table ops).2.filterMap tail).length ∧
    (sysRun live tail acc new s (List.replicate (2 * ops.length) (.pair i) ++
        (inTurn acc s.accum.threads.length ((pairRun live s.pair.table ops).2.filterMap tail)).map
          .upsert)).accum.table.SameElems
      (((pairRun live s.pair.table ops).2.filterMap tail).foldl
        (upsertSample (fun x r => seqApply (acc x) r) new) s.accum.table) := by
  obtain ⟨hpair, H, hH, hacc⟩ := sysRun_pairs live tail acc new s (List.replicate (2 * ops.length) i)
  have hready := PairingConcurrent.sysRun_replicate_ready live ops s.pair i _ le_rfl hp
  rw [hready] at hH hpair
  obtain rfl : H = (pairRun live s.pair.table ops).2 := (List.append_cancel_left hH).symm
  rw [← List.map_replicate, sysRun_append_picks, sysRun_upserts]
  refine ⟨hpair, ?_, ?_⟩
  · rw [← List.length_map _ Pc.input, map_input_sysRun, List.length_map, hacc]
    simp
  · rw [hacc]
    exact sysRun_inTurn acc new _ _ _ fun t kx ht => by simp [List.getElem?_append_right, ht]

/-- Invocations `i`, `i + 1`, … not started, run as whole invocations one after another from
the pairing table `m` with `j` upserts started, leave the pairing table and the completions of the
engine over all their ops in turn, and an accumulation table no helper tells apart from the
sequential fold of the admitted samples. -/
theorem sysRun_wholeInTurn : ∀ (invs : List (List (PairOp K V I))) (s : Sys K V I A X R)
    (m : BpfMap K V) (i j : Nat), s.pair.table = m → s.accum.threads.length = j →
    (∀ t ops, invs[t]? = some ops → s.pair.threads[i + t]? = some (.ready ops)) →
    (sysRun live tail acc new s (wholeInTurn live tail acc m i j invs)).pair.table =
        (pairRun live m invs.flatten).1 ∧
      (sysRun live tail acc new s (wholeInTurn live tail acc m i j invs)).pair.handed =
        s.pair.handed ++ (pairRun live m invs.flatten).2 ∧
      (sysRun live tail acc new s (wholeInTurn live tail acc m i j invs)).accum.table.SameElems
        (((pairRun live m invs.flatten).2.filterMap tail).foldl
          (upsertSample (fun x r => seqApply (acc x) r) new) s.accum.table)
  | [], s, _, _, _, hm, _, _ => ⟨hm, by simp [wholeInTurn, sysRun, pairRun], BpfMap.SameElems.refl _⟩
  | ops :: invs, s, _, i, _, rfl, rfl, hth => by
    have hp : s.pair.threads[i]? = some (.ready ops) := hth 0 ops (by simp)
    obtain ⟨hpair, hlen, hsame⟩ := sysRun_wholeInvocation live tail acc new hp
    obtain ⟨h₁, h₂, h₃⟩ := sysRun_wholeInTurn invs _ (pairRun live s.pair.table ops).1 (i + 1) _
      (by rw [hpair]) hlen (by rw [hpair]; exact getElem?_set_succ hp _ hth)
    rw [wholeInTurn, sysRun_append_picks, List.flatten_cons, pairRun_append]
    refine ⟨h₁, ?_, ?_⟩
    · rw [h₂, hpair, List.append_assoc]
    · rw [List.filterMap_append, List.foldl_append]
      exact h₃.trans (sameElems_foldl new _ _ hsame)

end Serial

section SerialLaw

variable {S E K V I A X R : Type} [DecidableEq K] [DecidableEq A]

/-- The state a run's invocations reach as whole invocations one after another, from the run's
start and an empty accumulation table of the same size. -/
def wholeInTurnRun (P : LatencyProgram S E K V I A X R) (acc : X → List (Access R)) (s : S)
    (es : List E) : Sys K V I A X R :=
  sysRun P.live P.tail acc P.new (Sys.init (P.start s) (P.accum s).maxEntries [] (es.map P.ops))
    (wholeInTurn P.live P.tail acc (P.start s) 0 0 (es.map P.ops))

/-- A latency program whose merge branch is the accesses `acc`, its invocations over a run's
events run as whole invocations one after another: the pairing table and the handed completions
are those of the sequential run, and the accumulation table is one no helper tells apart from
the one that run leaves. -/
def WholeSerialLaw (P : LatencyProgram S E K V I A X R) (acc : X → List (Access R)) (s : S) :
    Prop :=
  (∀ x r, P.merge x r = seqApply (acc x) r) ∧ ∀ es,
    (wholeInTurnRun P acc s es).pair.table = P.start (P.run s es) ∧
      (wholeInTurnRun P acc s es).pair.handed = P.completions s es ∧
      (wholeInTurnRun P acc s es).accum.table.SameElems (P.accum (P.run s es))

/-- A program whose merge branch is its accesses has the whole serial law from an empty
accumulation table. -/
theorem wholeSerialLaw {P : LatencyProgram S E K V I A X R} {acc : X → List (Access R)}
    (hseq : ∀ x r, P.merge x r = seqApply (acc x) r) (s : S)
    (hinit : ∀ k, (P.accum s).lookupElem k = none) : WholeSerialLaw P acc s := by
  refine ⟨hseq, fun es => ?_⟩
  have hmerge : (fun x r => seqApply (acc x) r) = P.merge :=
    funext fun x => funext fun r => (hseq x r).symm
  obtain ⟨h₁, h₂, h₃⟩ := sysRun_wholeInTurn P.live P.tail acc P.new (es.map P.ops)
    (Sys.init (P.start s) (P.accum s).maxEntries [] (es.map P.ops)) (P.start s) 0 0 rfl rfl
    fun t ops h => by rw [Nat.zero_add, Sys.init, PairingConcurrent.Sys.init, List.getElem?_map, h]; rfl
  rw [hmerge] at h₃
  rw [(P.run_tables s es).1, (P.run_tables s es).2, LatencyProgram.completions,
    LatencyProgram.opsOf, List.flatMap, wholeInTurnRun]
  exact ⟨h₁, h₂, h₃.trans (sameElems_foldl P.new _ _
    ⟨rfl, fun k => by simp [Sys.init, Atomic.Sys.init, hinit k]⟩)⟩

end SerialLaw

/-- The nine latency handlers, each invocation run whole (its pairing code, then each upsert it
started alone until it returns) before the next starts, leave the pairing table and the
completions of their sequential runs and an accumulation table no helper tells apart from the
one those runs leave: the sequential model is the interleaved one at the schedules that never
interleave. -/
theorem whole_invocations_in_turn_are_sequential_runs :
    WholeSerialLaw directReclaim reclaimAccesses DirectReclaim.init ∧
      WholeSerialLaw lockwait lockAccesses Lockwait.init ∧
      WholeSerialLaw pgfault pgfaultAccesses Pgfault.init ∧
      WholeSerialLaw runqlat latAccesses Runqlat.init ∧
      WholeSerialLaw syscallDissect latAccesses SyscallDissect.init ∧
      WholeSerialLaw offcpu offcpuAccesses Offcpu.init ∧
      WholeSerialLaw sockioRecv sockioAccesses Sockio.init ∧
      WholeSerialLaw tcpconnlat connlatAccesses Tcpconnlat.init ∧
      WholeSerialLaw iolatency iolatAccesses Iolatency.init :=
  ⟨wholeSerialLaw (fun _ _ => rfl) _ (BpfMap.lookupElem_empty _),
    wholeSerialLaw (fun _ _ => rfl) _ (BpfMap.lookupElem_empty _),
    wholeSerialLaw pgfaultMerge_eq_seqApply _ (BpfMap.lookupElem_empty _),
    wholeSerialLaw latMerge_eq_seqApply _ (BpfMap.lookupElem_empty _),
    wholeSerialLaw latMerge_eq_seqApply _ (BpfMap.lookupElem_empty _),
    wholeSerialLaw (fun _ _ => rfl) _ (BpfMap.lookupElem_empty _),
    wholeSerialLaw sockioMerge_eq_seqApply _ (BpfMap.lookupElem_empty _),
    wholeSerialLaw connlatMerge_eq_seqApply _ (BpfMap.lookupElem_empty _),
    wholeSerialLaw iolatMerge_eq_seqApply _ (BpfMap.lookupElem_empty _)⟩

end XtopEbpf.HandlerConcurrent
