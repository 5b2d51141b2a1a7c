import XtopEbpf.Accumulate

/-!
# Begin/end pairing tables

A latency handler pair keeps one in-flight entry per key: the begin event
stores it with `BPF_ANY`, overwriting any earlier one, and the end event looks
it up and deletes it, handing the entry to the rest of the handler. A `PairOp`
is one such begin or end, after the handler's own filters. The specification
of a run reads its list of ops alone: for each key the table holds the entry
of the latest op on that key when that op is a begin, and every end that
finds an entry pairs with that pending begin. A `LatencyProgram` is a handler
pair seen through its two tables, with proofs that the code acts on them as
its ops and its tail say.
-/

namespace XtopEbpf.Pairing

open Runtime Accumulate

/-- One begin or end a handler performs on its pairing table. -/
inductive PairOp (K V I : Type) where
  /-- `bpf_map_update_elem(&start, &key, &entry, BPF_ANY)`. -/
  | begin (key : K) (entry : V)
  /-- Look `key` up and, when found, delete it; `info` is what the end event carries. -/
  | finish (key : K) (now : U64) (info : I)
  deriving DecidableEq

/-- An end that found its key's entry: the candidate sample it hands on. -/
structure Completion (K V I : Type) where
  /-- The pairing key. -/
  key : K
  /-- The entry the end consumed. -/
  entry : V
  /-- `bpf_ktime_get_ns()` at the end. -/
  now : U64
  /-- What the end event carries. -/
  info : I
  deriving DecidableEq

namespace PairOp

variable {K V I : Type}

/-- The key an op touches. -/
def key : PairOp K V I → K
  | begin k _ => k
  | finish k _ _ => k

/-- The entry an op leaves for its key: a begin's entry, none after an end. -/
def entry? : PairOp K V I → Option V
  | begin _ v => some v
  | finish .. => none

/-- The time an op reads: a begin's stored stamp, an end's clock. -/
def time (stamp : V → U64) : PairOp K V I → U64
  | begin _ v => stamp v
  | finish _ now _ => now

end PairOp

section Engine

variable {K V I : Type} [DecidableEq K] (live : V → Bool)

/-- One op on the table. An end deletes the entry it finds when the handler accepts it as live. -/
def pairStep (m : BpfMap K V) : PairOp K V I → BpfMap K V
  | .begin k v => (m.updateElem k v .any).2
  | .finish k _ _ =>
    match m.lookupElem k with
    | some v => if live v then m.deleteElem k else m
    | none => m

/-- The completion an end yields: the live entry it finds, with its own time and payload. -/
def pairYield (m : BpfMap K V) : PairOp K V I → Option (Completion K V I)
  | .begin .. => none
  | .finish k now i =>
    match m.lookupElem k with
    | some v => if live v then some ⟨k, v, now, i⟩ else none
    | none => none

/-- A run of ops: the table after it and the completions it yields, in order. -/
def pairRun : BpfMap K V → List (PairOp K V I) → BpfMap K V × List (Completion K V I)
  | m, [] => (m, [])
  | m, op :: ops =>
    ((pairRun (pairStep live m op) ops).1,
      (pairYield live m op).toList ++ (pairRun (pairStep live m op) ops).2)

/-- No begin of the run meets its key absent from a full table. -/
def Admits : BpfMap K V → List (PairOp K V I) → Prop
  | _, [] => True
  | m, op :: ops => (∀ k v, op = .begin k v → m.HasRoom k) ∧ Admits (pairStep live m op) ops

/-- Whether a run admits its begins is decidable, so a concrete run can be checked. -/
instance instDecidableAdmits (m : BpfMap K V) :
    ∀ ops : List (PairOp K V I), Decidable (Admits live m ops)
  | [] => isTrue trivial
  | .begin k v :: ops =>
    haveI := instDecidableAdmits (pairStep live m (.begin k v : PairOp K V I)) ops
    decidable_of_iff (m.HasRoom k ∧ Admits live (pairStep live m (.begin k v : PairOp K V I)) ops)
      ⟨fun ⟨h, a⟩ => ⟨fun _ _ he => (by cases he; exact h), a⟩, fun ⟨h, a⟩ => ⟨h k v rfl, a⟩⟩
  | .finish k now i :: ops =>
    haveI := instDecidableAdmits (pairStep live m (.finish k now i)) ops
    decidable_of_iff (Admits live (pairStep live m (.finish k now i)) ops)
      ⟨fun a => ⟨fun _ _ he => (by cases he), a⟩, fun ⟨_, a⟩ => a⟩

/-- Runs compose: the second part starts from the table the first leaves. -/
theorem pairRun_append (m : BpfMap K V) (ops ops' : List (PairOp K V I)) :
    pairRun live m (ops ++ ops') =
      ((pairRun live (pairRun live m ops).1 ops').1,
        (pairRun live m ops).2 ++ (pairRun live (pairRun live m ops).1 ops').2) := by
  induction ops generalizing m with
  | nil => rfl
  | cons op ops ih => simp [pairRun, ih]

/-- Each end yields at most one completion, and a begin none. -/
theorem length_pairRun_le (m : BpfMap K V) (ops : List (PairOp K V I)) :
    (pairRun live m ops).2.length ≤ ops.countP fun op => op.entry?.isNone := by
  induction ops generalizing m with
  | nil => simp [pairRun]
  | cons op ops ih =>
    have h := ih (pairStep live m op)
    have hyield : (pairYield live m op).toList.length ≤ if op.entry?.isNone then 1 else 0 := by
      cases op with
      | begin k v => simp [pairYield, PairOp.entry?]
      | finish k now i => cases pairYield live m (.finish k now i) <;> simp [PairOp.entry?]
    simp only [pairRun, List.length_append, List.countP_cons]
    by_cases hc : op.entry?.isNone <;> simp only [hc, if_true, if_false] at hyield ⊢ <;> omega

/-- An op changes its own key's entry only: a begin with room stores its entry, an end
consumes a live entry. -/
theorem lookupElem_pairStep (m : BpfMap K V) (op : PairOp K V I)
    (hroom : ∀ k v, op = .begin k v → m.HasRoom k)
    (hlive : ∀ v, m.lookupElem op.key = some v → live v = true) (k : K) :
    (pairStep live m op).lookupElem k = if op.key = k then op.entry? else m.lookupElem k := by
  cases op with
  | begin k' v =>
    simp only [pairStep, BpfMap.updateElem_any _ _ _ (hroom k' v rfl), BpfMap.lookupElem_put,
      PairOp.key, PairOp.entry?, eq_comm]
  | finish k' now i =>
    simp only [pairStep, PairOp.key, PairOp.entry?] at hlive ⊢
    cases hk : m.lookupElem k' with
    | none => by_cases h : k' = k <;> simp_all
    | some v => simp [hlive v hk, BpfMap.lookupElem_deleteElem, eq_comm]

/-- An op on another key leaves an entry alone, whether a begin fits or not. -/
theorem lookupElem_pairStep_of_ne (m : BpfMap K V) (op : PairOp K V I) {k : K} (hk : op.key ≠ k) :
    (pairStep live m op).lookupElem k = m.lookupElem k := by
  cases op with
  | begin k' v =>
    simp only [pairStep, PairOp.key] at hk ⊢
    by_cases h : m.HasRoom k'
    · rw [BpfMap.updateElem_any _ _ _ h, BpfMap.lookupElem_put, if_neg (Ne.symm hk)]
    · rw [(m.updateElem_of_not_hasRoom k' v .any h).2]
  | finish k' now i =>
    simp only [pairStep, PairOp.key] at hk ⊢
    split
    · split
      · rw [BpfMap.lookupElem_deleteElem, if_neg (Ne.symm hk)]
      · rfl
    · rfl

/-- An entry stays as long as no op lands on its key. -/
theorem lookupElem_pairRun_of_ne {k : K} :
    ∀ (m : BpfMap K V) (ops : List (PairOp K V I)), (∀ op ∈ ops, op.key ≠ k) →
      (pairRun live m ops).1.lookupElem k = m.lookupElem k
  | _, [], _ => rfl
  | m, op :: ops, h => by
    simp only [pairRun]
    rw [lookupElem_pairRun_of_ne _ ops (fun o ho => h o (List.mem_cons_of_mem _ ho)),
      lookupElem_pairStep_of_ne live m op (h op (List.mem_cons_self _ _))]

/-- An op never changes the table's capacity. -/
@[simp] theorem maxEntries_pairStep (m : BpfMap K V) (op : PairOp K V I) :
    (pairStep live m op).maxEntries = m.maxEntries := by
  cases op with
  | begin k v => simp [pairStep]
  | finish k now i => simp only [pairStep]; split <;> (try split) <;> simp

/-- A run never changes the table's capacity. -/
@[simp] theorem maxEntries_pairRun :
    ∀ (m : BpfMap K V) (ops : List (PairOp K V I)), (pairRun live m ops).1.maxEntries = m.maxEntries
  | _, [] => rfl
  | m, op :: ops => by simp [pairRun, maxEntries_pairRun _ ops]

/-- On a full table an op on an absent key changes nothing: a begin finds no room and an end
finds no entry. -/
theorem pairStep_full_of_absent (m : BpfMap K V) (hfull : m.size = m.maxEntries)
    (op : PairOp K V I) (habs : m.lookupElem op.key = none) : pairStep live m op = m := by
  cases op with
  | begin k v =>
    have hroom : ¬ m.HasRoom k := by
      rintro (h | h)
      · exact BpfMap.mem_iff_lookupElem.mp h habs
      · omega
    exact (m.updateElem_of_not_hasRoom k v .any hroom).2
  | finish k now i => simp only [pairStep, PairOp.key] at habs ⊢; rw [habs]

/-- A full table stays as it is over every run whose ops all land on absent keys. -/
theorem pairRun_full_of_absent (m : BpfMap K V) (hfull : m.size = m.maxEntries) :
    ∀ ops : List (PairOp K V I), (∀ op ∈ ops, m.lookupElem op.key = none) →
      (pairRun live m ops).1 = m
  | [], _ => rfl
  | op :: ops, h => by
    simp only [pairRun]
    rw [pairStep_full_of_absent live m hfull op (h op (List.mem_cons_self _ _))]
    exact pairRun_full_of_absent m hfull ops fun o ho => h o (List.mem_cons_of_mem _ ho)

/-- The begins on `k` among the ops. -/
def beginsOn (k : K) (ops : List (PairOp K V I)) : Nat :=
  ops.countP fun op => op.key = k ∧ op.entry?.isSome

/-- An end yields a completion on its own key. -/
theorem key_of_pairYield {m : BpfMap K V} {op : PairOp K V I} {c : Completion K V I}
    (h : pairYield live m op = some c) : c.key = op.key := by
  cases op with
  | begin k v => simp [pairYield] at h
  | finish k now i =>
    simp only [pairYield] at h
    split at h
    · split at h
      · cases h; rfl
      · cases h
    · cases h

/-- One op yields on `k` at most the entry it takes from `k`, and stores at most its own: what
it yields on `k` and what `k` holds after it never exceed what `k` held before and the op's
begin on `k`. -/
theorem yield_add_held_pairStep (m : BpfMap K V) (op : PairOp K V I) (k : K) :
    ((pairYield live m op).toList.filter (·.key = k)).length +
        ((pairStep live m op).lookupElem k).isSome.toNat ≤
      beginsOn k [op] + (m.lookupElem k).isSome.toNat := by
  by_cases hk : op.key = k
  · subst hk
    cases op with
    | begin k v =>
      have : ((pairStep live m (.begin k v : PairOp K V I)).lookupElem k).isSome.toNat ≤ 1 :=
        Bool.toNat_le _
      simp [pairYield, beginsOn, PairOp.key, PairOp.entry?] at this ⊢
      omega
    | finish k now i =>
      simp only [pairStep, pairYield, PairOp.key]
      cases hv : m.lookupElem k with
      | none => simp [hv]
      | some v => by_cases hl : live v <;> simp [hv, hl, BpfMap.lookupElem_deleteElem]
  · have hy : (pairYield live m op).toList.filter (·.key = k) = [] := by
      cases hc : pairYield live m op with
      | none => rfl
      | some c => simp [key_of_pairYield live hc, hk]
    rw [hy, lookupElem_pairStep_of_ne live m op hk]
    simp

/-- No entry is handed on twice: along any run, full table or not, the completions on `k` and
the entry `k` keeps at the end never outnumber the begins on `k` and the entry it held at the
start. -/
theorem consumed_add_held_le (k : K) : ∀ (m : BpfMap K V) (ops : List (PairOp K V I)),
    ((pairRun live m ops).2.filter (·.key = k)).length +
        ((pairRun live m ops).1.lookupElem k).isSome.toNat ≤
      beginsOn k ops + (m.lookupElem k).isSome.toNat
  | _, [] => by simp [pairRun, beginsOn]
  | m, op :: ops => by
    have h₁ := yield_add_held_pairStep live m op k
    have h₂ := consumed_add_held_le k (pairStep live m op) ops
    have hb : beginsOn k (op :: ops) = beginsOn k [op] + beginsOn k ops := by
      simp only [beginsOn, List.countP_cons, List.countP_nil]
      omega
    simp only [pairRun, List.filter_append, List.length_append]
    omega

end Engine

section Spec

variable {K V I : Type} [DecidableEq K]

/-- The latest op on `k`. -/
def lastOn (k : K) (ops : List (PairOp K V I)) : Option (PairOp K V I) :=
  ops.reverse.find? (·.key = k)

/-- The entry the ops leave pending for `k`: the latest op's on `k`, when that op is a begin. -/
def pending (k : K) (ops : List (PairOp K V I)) : Option V :=
  (lastOn k ops).bind PairOp.entry?

/-- The completions the ops specify after the earlier ops `pre`: each end paired with the entry
pending for its key at that point. -/
def matchedAfter : List (PairOp K V I) → List (PairOp K V I) → List (Completion K V I)
  | _, [] => []
  | pre, .begin k v :: ops => matchedAfter (pre ++ [.begin k v]) ops
  | pre, .finish k now i :: ops =>
    ((pending k pre).map fun v => ⟨k, v, now, i⟩).toList ++
      matchedAfter (pre ++ [.finish k now i]) ops

/-- The completions a list of ops specifies. -/
def matched (ops : List (PairOp K V I)) : List (Completion K V I) := matchedAfter [] ops

/-- Appending one op changes the pending entry of that op's key only. -/
theorem pending_append_singleton (k : K) (pre : List (PairOp K V I)) (op : PairOp K V I) :
    pending k (pre ++ [op]) = if op.key = k then op.entry? else pending k pre := by
  by_cases h : op.key = k <;> simp [pending, lastOn, List.find?_cons, h]

/-- A pending entry was stored by a begin on its key. -/
theorem begin_mem_of_pending {k : K} {ops : List (PairOp K V I)} {v : V}
    (h : pending k ops = some v) : PairOp.begin k v ∈ ops := by
  unfold pending lastOn at h
  cases hf : ops.reverse.find? (·.key = k) with
  | none => simp [hf] at h
  | some op =>
    have hmem := List.mem_reverse.mp (List.mem_of_find?_eq_some hf)
    have hkey := List.find?_some hf
    cases op with
    | begin k' v' => simp_all [PairOp.key, PairOp.entry?]
    | finish k' now i => simp [hf, PairOp.entry?] at h

/-- A run that admits every begin meets the specification: from a table holding what `pre`
leaves pending, the table ends holding what `pre ++ ops` leaves pending, and the ends yield
exactly the completions `matchedAfter pre ops`. -/
theorem pairRun_spec (live : V → Bool) :
    ∀ (pre ops : List (PairOp K V I)) (m : BpfMap K V),
      (∀ k, m.lookupElem k = pending k pre) →
      (∀ k v, PairOp.begin k v ∈ pre ++ ops → live v = true) →
      Admits live m ops →
      (∀ k, (pairRun live m ops).1.lookupElem k = pending k (pre ++ ops)) ∧
        (pairRun live m ops).2 = matchedAfter pre ops
  | pre, [], m, hm, _, _ => by
    cases pre <;> simpa [pairRun, matchedAfter] using hm
  | pre, op :: ops, m, hm, hlive, ⟨hroom, hadm⟩ => by
    have hpre : ∀ k v, pending k pre = some v → live v = true := fun k v hv =>
      hlive k v (List.mem_append_left _ (begin_mem_of_pending hv))
    have hstep : ∀ k, (pairStep live m op).lookupElem k = pending k (pre ++ [op]) := by
      intro k
      rw [lookupElem_pairStep live m op hroom (fun v hv => hpre _ v (hm _ ▸ hv)) k,
        pending_append_singleton, hm]
    obtain ⟨ih₁, ih₂⟩ := pairRun_spec live (pre ++ [op]) ops _ hstep
      (by simpa using hlive) hadm
    refine ⟨by simpa using ih₁, ?_⟩
    cases op with
    | begin k v => simp [pairRun, pairYield, matchedAfter, ih₂]
    | finish k now i =>
      have hy : pairYield live m (.finish k now i) = (pending k pre).map fun v => ⟨k, v, now, i⟩ := by
        simp only [pairYield, hm]
        cases hv : pending k pre with
        | none => rfl
        | some v => simp [hpre k v hv]
      simp [pairRun, hy, matchedAfter, ih₂]

/-- When the ops' times never decrease, every completion's entry was stamped no later than
the end that consumed it, so its duration is computed without wrapping. -/
theorem stamp_le_of_mem_matchedAfter (stamp : V → U64) :
    ∀ (pre ops : List (PairOp K V I)),
      (∀ a ∈ pre, ∀ b ∈ ops, (a.time stamp).toNat ≤ (b.time stamp).toNat) →
      ops.Pairwise (fun a b => (a.time stamp).toNat ≤ (b.time stamp).toNat) →
      ∀ c ∈ matchedAfter pre ops, (stamp c.entry).toNat ≤ c.now.toNat
  | _, [], _, _ => by simp [matchedAfter]
  | pre, op :: ops, hpre, hops => by
    rw [List.pairwise_cons] at hops
    have hnext : ∀ a ∈ pre ++ [op], ∀ b ∈ ops, (a.time stamp).toNat ≤ (b.time stamp).toNat := by
      intro a ha b hb
      rcases List.mem_append.mp ha with ha | ha
      · exact hpre a ha b (List.mem_cons_of_mem _ hb)
      · exact (List.mem_singleton.mp ha) ▸ hops.1 b hb
    have ih := stamp_le_of_mem_matchedAfter stamp (pre ++ [op]) ops hnext hops.2
    cases op with
    | begin k v => exact ih
    | finish k now i =>
      intro c hc
      rcases List.mem_append.mp hc with hc | hc
      · cases hv : pending k pre with
        | none => simp [hv] at hc
        | some v =>
          simp only [hv, Option.map_some', Option.toList_some, List.mem_singleton] at hc
          subst hc
          exact hpre _ (begin_mem_of_pending hv) _ (List.mem_cons_self _ _)
      · exact ih c hc

end Spec

section Threads

/-! ### Threads sharing a key

When several threads share a pairing key, each op is tagged with its thread.
A run has no overlap when no op on a key lands while another thread's begin
is the latest op on that key; then every end pairs with its own thread's
begin. -/

variable {T K V I : Type} [DecidableEq K]

/-- The latest tagged op on `k`. -/
def lastOnTagged (k : K) (ops : List (T × PairOp K V I)) : Option (T × PairOp K V I) :=
  ops.reverse.find? (·.2.key = k)

/-- Forgetting the threads keeps the latest op. -/
theorem lastOn_map_snd (k : K) (pre : List (T × PairOp K V I)) :
    lastOn k (pre.map Prod.snd) = (lastOnTagged k pre).map Prod.snd := by
  simp only [lastOn, lastOnTagged, ← List.map_reverse, List.find?_map]
  rfl

/-- Appending an op makes it the latest on its key. -/
theorem lastOnTagged_append_singleton (k : K) (pre : List (T × PairOp K V I))
    (op : T × PairOp K V I) :
    lastOnTagged k (pre ++ [op]) = if op.2.key = k then some op else lastOnTagged k pre := by
  by_cases h : op.2.key = k <;> simp [lastOnTagged, List.find?_cons, h]

/-- A latest begin on `k` is on `k`. -/
theorem key_of_lastOnTagged {k k' : K} {pre : List (T × PairOp K V I)} {t : T} {v : V}
    (h : lastOnTagged k pre = some (t, .begin k' v)) : k' = k := by
  have := List.find?_some (by simpa [lastOnTagged] using h)
  simpa [PairOp.key] using this

variable [DecidableEq T]

/-- No op on a key lands while another thread's begin is the latest op on that key. -/
def NoOverlapAfter : List (T × PairOp K V I) → List (T × PairOp K V I) → Prop
  | _, [] => True
  | pre, op :: ops =>
    (∀ t v, lastOnTagged op.2.key pre = some (t, .begin op.2.key v) → t = op.1) ∧
      NoOverlapAfter (pre ++ [op]) ops

/-- Whether an op of thread `t` on `k` lands while another thread's begin is the latest op on
`k`, checked on the latest op. -/
theorem noOverlap_iff (k : K) (pre : List (T × PairOp K V I)) (t₀ : T) :
    (∀ t v, lastOnTagged k pre = some (t, .begin k v) → t = t₀) ↔
      (lastOnTagged k pre).all fun p => p.2.entry?.isNone || decide (p.1 = t₀) := by
  constructor
  · intro h
    cases hl : lastOnTagged k pre with
    | none => rfl
    | some p =>
      obtain ⟨t, op⟩ := p
      cases op with
      | begin k' v =>
        obtain rfl := key_of_lastOnTagged hl
        simp [PairOp.entry?, h t v hl]
      | finish => simp [PairOp.entry?]
  · intro h t v hl
    rw [hl] at h
    simpa [PairOp.entry?] using h

/-- Whether a tagged run overlaps is decidable, so a concrete run can be checked. -/
instance instDecidableNoOverlapAfter :
    ∀ pre ops : List (T × PairOp K V I), Decidable (NoOverlapAfter pre ops)
  | _, [] => isTrue trivial
  | pre, op :: ops =>
    have := instDecidableNoOverlapAfter (pre ++ [op]) ops
    decidable_of_iff' _ (and_congr_left fun _ => noOverlap_iff op.2.key pre op.1)

/-- The entry thread `t`'s own ops leave pending for `k`. -/
def pendingOwn (t : T) (k : K) (ops : List (T × PairOp K V I)) : Option V :=
  pending k ((ops.filter (·.1 = t)).map Prod.snd)

/-- The completions a tagged run specifies when each end pairs with its own thread's pending
begin. -/
def matchedOwnAfter : List (T × PairOp K V I) → List (T × PairOp K V I) → List (Completion K V I)
  | _, [] => []
  | pre, (t, .begin k v) :: ops => matchedOwnAfter (pre ++ [(t, .begin k v)]) ops
  | pre, (t, .finish k now i) :: ops =>
    ((pendingOwn t k pre).map fun v => ⟨k, v, now, i⟩).toList ++
      matchedOwnAfter (pre ++ [(t, .finish k now i)]) ops

/-- A thread's own pending entry changes only with its own ops on that key. -/
theorem pendingOwn_append_singleton (t : T) (k : K) (pre : List (T × PairOp K V I))
    (op : T × PairOp K V I) :
    pendingOwn t k (pre ++ [op]) =
      if op.1 = t ∧ op.2.key = k then op.2.entry? else pendingOwn t k pre := by
  unfold pendingOwn
  by_cases h₁ : op.1 = t
  · simp [h₁, pending_append_singleton]
  · simp [h₁]

/-- What a thread's own pending entry is when threads never overlap: the latest op on the key,
if it is that thread's begin. -/
def ownIfLatest (t : T) (k : K) (pre : List (T × PairOp K V I)) : Option V :=
  match lastOnTagged k pre with
  | some (t', .begin _ v) => if t' = t then some v else none
  | _ => none

/-- Appending an op decides the thread-own view of its key. -/
theorem ownIfLatest_append_singleton (t : T) (k : K) (pre : List (T × PairOp K V I))
    (op : T × PairOp K V I) :
    ownIfLatest t k (pre ++ [op]) =
      if op.2.key = k then (if op.1 = t then op.2.entry? else none) else ownIfLatest t k pre := by
  unfold ownIfLatest
  rw [lastOnTagged_append_singleton]
  obtain ⟨t₁, op₁⟩ := op
  split_ifs <;> cases op₁ <;> simp_all [PairOp.entry?]

/-- Where an op of thread `t₁` may land, no other thread has the latest begin on its key. -/
theorem ownIfLatest_eq_none {pre : List (T × PairOp K V I)} {op : T × PairOp K V I} {t : T}
    (hop : ∀ t v, lastOnTagged op.2.key pre = some (t, .begin op.2.key v) → t = op.1)
    (ht : op.1 ≠ t) : ownIfLatest t op.2.key pre = none := by
  unfold ownIfLatest
  split
  · rename_i t' k' v hl
    have hk := key_of_lastOnTagged hl
    subst hk
    simp [show t' ≠ t from fun he => ht (he ▸ hop t' v hl).symm]
  · rfl

/-- Without overlap, every thread's own pending entry is the latest begin on the key when
that begin is its own. -/
theorem pendingOwn_eq_ownIfLatest :
    ∀ (pre ops : List (T × PairOp K V I)), NoOverlapAfter pre ops →
      (∀ t k, pendingOwn t k pre = ownIfLatest t k pre) →
      ∀ t k, pendingOwn t k (pre ++ ops) = ownIfLatest t k (pre ++ ops)
  | pre, [], _, h => by simpa using h
  | pre, op :: ops, ⟨hop, hrest⟩, h => by
    have hstep : ∀ t k, pendingOwn t k (pre ++ [op]) = ownIfLatest t k (pre ++ [op]) := by
      intro t k
      rw [pendingOwn_append_singleton, ownIfLatest_append_singleton, h]
      by_cases hk : op.2.key = k
      · subst hk
        by_cases ht : op.1 = t
        · simp [ht]
        · simp [ht, ownIfLatest_eq_none hop ht]
      · simp [hk]
    simpa using pendingOwn_eq_ownIfLatest (pre ++ [op]) ops hrest hstep

/-- Without overlap, every end pairs with its own thread's pending begin: the completions of
the run are the thread-own ones. -/
theorem matchedAfter_eq_matchedOwnAfter :
    ∀ (pre ops : List (T × PairOp K V I)), NoOverlapAfter pre ops →
      (∀ t k, pendingOwn t k pre = ownIfLatest t k pre) →
      matchedAfter (pre.map Prod.snd) (ops.map Prod.snd) = matchedOwnAfter pre ops
  | _, [], _, _ => rfl
  | pre, (t, op) :: ops, ⟨hop, hrest⟩, h => by
    have ih := matchedAfter_eq_matchedOwnAfter (pre ++ [(t, op)]) ops hrest
      (pendingOwn_eq_ownIfLatest pre [(t, op)] ⟨hop, trivial⟩ h)
    cases op with
    | begin k v => simpa [matchedAfter, matchedOwnAfter] using ih
    | finish k now i =>
      have hp : pending k (pre.map Prod.snd) = pendingOwn t k pre := by
        rw [h, pending, lastOn_map_snd, ownIfLatest]
        split
        · rename_i t' k' v hl
          have hk := key_of_lastOnTagged hl
          subst hk
          simp [hl, hop t' v hl, PairOp.entry?]
        · rename_i hne
          cases hl : lastOnTagged k pre with
          | none => rfl
          | some l =>
            obtain ⟨t', op'⟩ := l
            cases op' with
            | begin k' v => exact absurd hl (hne t' k' v)
            | finish k' now' i' => rfl
      simp only [List.map_append, List.map_cons, List.map_nil] at ih
      simp [matchedAfter, matchedOwnAfter, hp, ih]

end Threads

/-- A latency handler pair seen through its pairing table and its accumulation table. -/
structure LatencyProgram (S E K V I A X R : Type) [DecidableEq K] [DecidableEq A] where
  /-- The pairing table within the handler's state. -/
  start : S → BpfMap K V
  /-- The accumulation table within the handler's state. -/
  accum : S → BpfMap A R
  /-- One invocation, as the code runs it. -/
  step : S → E → S
  /-- The begins and ends an invocation performs, after its filters. -/
  ops : E → List (PairOp K V I)
  /-- Which found entries an end consumes. -/
  live : V → Bool
  /-- `bpf_ktime_get_ns()` during the invocation. -/
  time : E → U64
  /-- The start time an entry carries. -/
  stamp : V → U64
  /-- The code after the delete: its filters, then the key and the sample it upserts. -/
  tail : Completion K V I → Option (A × X)
  /-- The in-place update of an existing record by one sample. -/
  merge : X → R → R
  /-- The record the insert branch builds from one sample. -/
  new : X → R
  /-- A begin stores, and an end reads, the invocation's own time. -/
  ops_time : ∀ e, ∀ op ∈ ops e, op.time stamp = time e
  /-- An entry stamped at a positive time is consumed by the end that finds it. -/
  live_of_stamp : ∀ v, 0 < (stamp v).toNat → live v = true
  /-- The invocation's effect on the pairing table is its ops. -/
  step_start : ∀ s e, start (step s e) = (pairRun live (start s) (ops e)).1
  /-- The invocation's effect on the accumulation table is its completions through the tail. -/
  step_accum : ∀ s e, accum (step s e) =
    ((pairRun live (start s) (ops e)).2.filterMap tail).foldl (upsertSample merge new) (accum s)

namespace LatencyProgram

variable {S E K V I A X R : Type} [DecidableEq K] [DecidableEq A]
variable (P : LatencyProgram S E K V I A X R)

/-- A sequential run of invocations. -/
def run (s : S) (es : List E) : S := es.foldl P.step s

/-- The ops of a run, in order. -/
def opsOf (es : List E) : List (PairOp K V I) := es.flatMap P.ops

/-- The handler pair seen through its accumulation table alone. -/
def toAccumProgram : AccumProgram S E A X R where
  accum := P.accum
  step := P.step
  admitted s e := (pairRun P.live (P.start s) (P.ops e)).2.filterMap P.tail
  merge := P.merge
  new := P.new
  step_accum := P.step_accum

/-- A run acts on both tables as the engine runs its ops: the pairing table is the engine's,
and the accumulation table takes the engine's completions through the tail. -/
theorem run_tables : ∀ (s : S) (es : List E),
    P.start (P.run s es) = (pairRun P.live (P.start s) (P.opsOf es)).1 ∧
      P.accum (P.run s es) = ((pairRun P.live (P.start s) (P.opsOf es)).2.filterMap P.tail).foldl
        (upsertSample P.merge P.new) (P.accum s)
  | _, [] => ⟨rfl, rfl⟩
  | s, e :: es => by
    obtain ⟨ih₁, ih₂⟩ := run_tables (P.step s e) es
    simp only [run, opsOf, List.foldl_cons, List.flatMap_cons, pairRun_append,
      List.filterMap_append, List.foldl_append, ← P.step_start, ← P.step_accum] at ih₁ ih₂ ⊢
    exact ⟨ih₁, ih₂⟩

/-- Clock readings positive and never decreasing along the run. -/
def TimesOk (es : List E) : Prop :=
  (∀ e ∈ es, 0 < (P.time e).toNat) ∧ es.Pairwise (fun a b => (P.time a).toNat ≤ (P.time b).toNat)

instance (es : List E) : Decidable (P.TimesOk es) := inferInstanceAs (Decidable (_ ∧ _))

/-- The pairing law of a handler pair from its initial state: over every run with good clock
readings that admits every begin, the pairing table holds exactly the pending begins, every
specified completion (and no other) reaches the tail in order, and each duration is exact. -/
def PairingLaw (init : S) : Prop :=
  ∀ es : List E, P.TimesOk es → Admits P.live (P.start init) (P.opsOf es) →
    (∀ k, (P.start (P.run init es)).lookupElem k = pending k (P.opsOf es)) ∧
    P.accum (P.run init es) =
      ((matched (P.opsOf es)).filterMap P.tail).foldl (upsertSample P.merge P.new) (P.accum init) ∧
    ∀ c ∈ matched (P.opsOf es), (c.now - P.stamp c.entry).toNat = c.now.toNat - (P.stamp c.entry).toNat

/-- Ops of a run with good clock readings carry non-decreasing times. -/
theorem opsOf_pairwise {es : List E} (h : P.TimesOk es) :
    (P.opsOf es).Pairwise (fun a b => (a.time P.stamp).toNat ≤ (b.time P.stamp).toNat) := by
  rw [opsOf, List.pairwise_flatMap]
  refine ⟨fun e _ => List.pairwise_of_forall_mem_list (fun a ha b hb => ?_), h.2.imp ?_⟩
  · rw [P.ops_time e a ha, P.ops_time e b hb]
  · intro a b hab x hx y hy
    rw [P.ops_time a x hx, P.ops_time b y hy]
    exact hab

/-- Every handler pair started from an empty pairing table satisfies its pairing law. -/
theorem pairingLaw (init : S) (hinit : ∀ k, (P.start init).lookupElem k = none) :
    P.PairingLaw init := by
  intro es hts hadm
  have hlive : ∀ k v, PairOp.begin k v ∈ [] ++ P.opsOf es → P.live v = true := by
    intro k v hv
    obtain ⟨e, he, hop⟩ := List.mem_flatMap.mp (by simpa [opsOf] using hv)
    apply P.live_of_stamp
    have := P.ops_time e _ hop
    simp only [PairOp.time] at this
    exact this ▸ hts.1 e he
  obtain ⟨hstart, hyield⟩ :=
    pairRun_spec P.live [] (P.opsOf es) (P.start init) (by simpa [pending, lastOn]) hlive hadm
  obtain ⟨hrun₁, hrun₂⟩ := P.run_tables init es
  refine ⟨fun k => by simpa [hrun₁] using hstart k, by rw [hrun₂, hyield]; rfl, fun c hc => ?_⟩
  have hle := stamp_le_of_mem_matchedAfter P.stamp [] (P.opsOf es) (by simp)
    (P.opsOf_pairwise hts) c hc
  exact BitVec.toNat_sub_of_le (BitVec.le_def.mpr hle)

/-- The ceiling law of a handler pair: over every run with good clock readings that admits
every begin, a matched begin and end reach the accumulation table exactly when `keeps` holds of
the completion and its duration. -/
def CeilingLaw (init : S) (keeps : Completion K V I → Nat → Prop) : Prop :=
  ∀ es : List E, P.TimesOk es → Admits P.live (P.start init) (P.opsOf es) →
    ∀ c ∈ matched (P.opsOf es), (P.tail c).isSome ↔ keeps c (c.now.toNat - (P.stamp c.entry).toNat)

/-- A tail that admits each completion by its duration, as the code computes it, satisfies the
ceiling law from an empty pairing table. -/
theorem ceilingLaw (init : S) (hinit : ∀ k, (P.start init).lookupElem k = none)
    (keeps : Completion K V I → Nat → Prop)
    (h : ∀ c, (P.tail c).isSome ↔ keeps c (c.now - P.stamp c.entry).toNat) :
    P.CeilingLaw init keeps := by
  intro es hts hadm c hc
  rw [h, (P.pairingLaw init hinit es hts hadm).2.2 c hc]

/-- The thread law of a handler pair whose key threads share: over every run with good clock
readings that admits every begin, and in which no op lands on a key while another thread's
begin is pending there, every end pairs with its own thread's begin. -/
def ThreadLaw {T : Type} [DecidableEq T] (init : S) (tagged : E → List (T × PairOp K V I)) : Prop :=
  ∀ es : List E, P.TimesOk es → Admits P.live (P.start init) (P.opsOf es) →
    NoOverlapAfter [] (es.flatMap tagged) →
    P.accum (P.run init es) = ((matchedOwnAfter [] (es.flatMap tagged)).filterMap P.tail).foldl
      (upsertSample P.merge P.new) (P.accum init)

/-- Every handler pair started from an empty pairing table satisfies the thread law of any
thread tagging of its ops. -/
theorem threadLaw {T : Type} [DecidableEq T] (init : S)
    (hinit : ∀ k, (P.start init).lookupElem k = none) (tagged : E → List (T × PairOp K V I))
    (htag : ∀ e, (tagged e).map Prod.snd = P.ops e) : P.ThreadLaw init tagged := by
  intro es hts hadm hno
  have hops : P.opsOf es = (es.flatMap tagged).map Prod.snd := by
    simp only [opsOf, List.map_flatMap, htag]
  rw [(P.pairingLaw init hinit es hts hadm).2.1, matched, hops,
    ← matchedAfter_eq_matchedOwnAfter [] _ hno (fun _ _ => rfl)]
  rfl

/-- Runs never change the pairing table's capacity. -/
theorem maxEntries_start_run (s : S) (es : List E) :
    (P.start (P.run s es)).maxEntries = (P.start s).maxEntries := by
  rw [(P.run_tables s es).1, maxEntries_pairRun]

/-- The pairing side of a handler pair's capacity law: no run fills the pairing table past
`cap`, and what an invocation does to it does not depend on the accumulation table. -/
def PairingCapacity (init : S) (cap : Nat) : Prop :=
  (∀ es, (P.start (P.run init es)).size ≤ cap) ∧
  ∀ s s' e, P.start s = P.start s' → P.start (P.step s e) = P.start (P.step s' e)

/-- Every handler pair satisfies the pairing capacity law of its pairing table's declared size. -/
theorem pairingCapacity (init : S) : P.PairingCapacity init (P.start init).maxEntries :=
  ⟨fun es => P.maxEntries_start_run init es ▸ BpfMap.size_le_maxEntries _,
    fun s s' e h => by rw [P.step_start, P.step_start, h]⟩

/-- Entries of the pairing table leave only through an op on their own key; once entries fill
the table, every run of ops on other keys leaves it as it is, each begin on a new key refused. -/
def EntriesPersist : Prop :=
  (∀ (s : S) (es : List E) (k : K), (∀ op ∈ P.opsOf es, op.key ≠ k) →
    (P.start (P.run s es)).lookupElem k = (P.start s).lookupElem k) ∧
  ∀ (s : S) (es : List E), (P.start s).size = (P.start s).maxEntries →
    (∀ op ∈ P.opsOf es, (P.start s).lookupElem op.key = none) →
    P.start (P.run s es) = P.start s ∧
      ∀ k, (P.start s).lookupElem k = none → ¬ (P.start (P.run s es)).HasRoom k

/-- Every handler pair keeps an entry until an op on its key, and a full table shuts out every
new key. -/
theorem entriesPersist : P.EntriesPersist := by
  refine ⟨fun s es k h => ?_, fun s es hfull habs => ?_⟩
  · rw [(P.run_tables s es).1, lookupElem_pairRun_of_ne _ _ _ h]
  · have hsame : P.start (P.run s es) = P.start s := by
      rw [(P.run_tables s es).1, pairRun_full_of_absent _ _ hfull _ habs]
    refine ⟨hsame, fun k hk => ?_⟩
    rw [hsame]
    rintro (h | h)
    · exact BpfMap.mem_iff_lookupElem.mp h hk
    · omega

/-- The completions a run hands to the code after the delete. -/
def completions (s : S) (es : List E) : List (Completion K V I) :=
  (pairRun P.live (P.start s) (P.opsOf es)).2

/-- The samples a run offers the accumulation table are its completions through the tail. -/
theorem samples_toAccumProgram : ∀ (s : S) (es : List E),
    P.toAccumProgram.samples s es = (P.completions s es).filterMap P.tail
  | _, [] => rfl
  | s, e :: es => by
    show (pairRun P.live (P.start s) (P.ops e)).2.filterMap P.tail ++
      P.toAccumProgram.samples (P.step s e) es = _
    rw [samples_toAccumProgram (P.step s e) es, completions, completions, opsOf, opsOf,
      List.flatMap_cons, pairRun_append, P.step_start, List.filterMap_append]

/-- The consumed-once law of a handler pair: over every run, full pairing table or not and
whatever the clock readings, the completions on a key never outnumber the begins on it. -/
def ConsumedOnce (init : S) : Prop :=
  ∀ es k, ((P.completions init es).filter (·.key = k)).length ≤ beginsOn k (P.opsOf es)

/-- Every handler pair started from an empty pairing table hands each begin's entry on at most
once. -/
theorem consumedOnce (init : S) (hinit : ∀ k, (P.start init).lookupElem k = none) :
    P.ConsumedOnce init := by
  intro es k
  have h := consumed_add_held_le P.live k (P.start init) (P.opsOf es)
  rw [hinit k] at h
  simp only [Option.isSome_none, Bool.toNat_false, Nat.add_zero] at h
  exact le_trans (Nat.le_add_right _ _) h

end LatencyProgram

end XtopEbpf.Pairing
