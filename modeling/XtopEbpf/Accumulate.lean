import XtopEbpf.Runtime

/-!
# Insert-or-merge into an accumulation table

Every handler folds a sample into its table with the same code: look the key
up; if the element exists, update its fields in place, otherwise build a
record and insert it with `BPF_NOEXIST`. `upsert` is that code with the
in-place update and the new record as parameters. An `AccumProgram` is a
handler seen through that one table: each invocation folds in the samples it
admits. Over a sequential run with no insert dropped, each key's record is its
own samples absorbed in arrival order, whatever happened to the other keys.
-/

namespace XtopEbpf.Accumulate

open Runtime

section Upsert

variable {K R X : Type} [DecidableEq K]

/-- `val = lookup(&key); if (val) merge in place; else update(&key, &new_val, BPF_NOEXIST)`. -/
def upsert (m : BpfMap K R) (k : K) (merge : R → R) (new : R) : BpfMap K R :=
  match m.lookupElem k with
  | some val => m.writeElem k (merge val)
  | none => (m.updateElem k new .noexist).2

/-- One sample folded into a key's record: merged into it, or built anew. -/
def absorb (merge : X → R → R) (new : X → R) (o : Option R) (x : X) : Option R :=
  some (o.elim (new x) (merge x))

/-- One admitted sample `(key, x)` folded into the table. -/
def upsertSample (merge : X → R → R) (new : X → R) (m : BpfMap K R) (kx : K × X) : BpfMap K R :=
  upsert m kx.1 (merge kx.2) (new kx.2)

/-- No sample of the list meets its key absent from a full table. -/
def NoDrop (merge : X → R → R) (new : X → R) : BpfMap K R → List (K × X) → Prop
  | _, [] => True
  | m, kx :: xs => m.HasRoom kx.1 ∧ NoDrop merge new (upsertSample merge new m kx) xs

instance instDecidableNoDrop (merge : X → R → R) (new : X → R) :
    ∀ (m : BpfMap K R) (xs : List (K × X)), Decidable (NoDrop merge new m xs)
  | _, [] => isTrue trivial
  | m, kx :: xs =>
    have := instDecidableNoDrop merge new (upsertSample merge new m kx) xs
    inferInstanceAs (Decidable (_ ∧ _))

/-- A key with an element always has room. -/
theorem hasRoom_of_lookupElem {m : BpfMap K R} {k : K} {r : R} (h : m.lookupElem k = some r) :
    m.HasRoom k :=
  .inl (BpfMap.mem_iff_lookupElem.mpr (by simp [h]))

/-- A present key is merged in place, full table or not. -/
theorem upsert_of_lookupElem {m : BpfMap K R} {k : K} {r : R} (merge : R → R) (new : R)
    (h : m.lookupElem k = some r) : upsert m k merge new = m.writeElem k (merge r) := by
  simp [upsert, h]

/-- An absent key in a full table: the sample is dropped and the table unchanged. -/
theorem upsert_of_not_hasRoom {m : BpfMap K R} {k : K} (merge : R → R) (new : R)
    (h : ¬ m.HasRoom k) : upsert m k merge new = m := by
  have hk : m.lookupElem k = none := by
    by_contra hne
    exact h (.inl (BpfMap.mem_iff_lookupElem.mpr hne))
  simp [upsert, hk, (m.updateElem_of_not_hasRoom k new .noexist h).2]

/-- Where the key fits, the upsert changes that key's record only. -/
theorem lookupElem_upsert {m : BpfMap K R} {k : K} (merge : R → R) (new : R)
    (h : m.HasRoom k) (k' : K) :
    (upsert m k merge new).lookupElem k' =
      if k' = k then some ((m.lookupElem k).elim new merge) else m.lookupElem k' := by
  unfold upsert
  cases hk : m.lookupElem k with
  | some r =>
    have hm : k ∈ m.elems := BpfMap.mem_iff_lookupElem.mpr (by simp [hk])
    simp [BpfMap.writeElem_of_mem _ _ _ hm, BpfMap.lookupElem_put]
  | none =>
    have hm : k ∉ m.elems := fun hm => BpfMap.mem_iff_lookupElem.mp hm hk
    simp [BpfMap.updateElem_noexist_of_not_mem _ _ _ hm h, BpfMap.lookupElem_put]

/-- Tables no helper tells apart stay alike under an upsert. -/
theorem sameElems_upsert {m m' : BpfMap K R} (h : m.SameElems m') (k : K) (merge : R → R)
    (new : R) : (upsert m k merge new).SameElems (upsert m' k merge new) := by
  unfold upsert
  rw [h.2 k]
  cases m'.lookupElem k with
  | some val => exact h.writeElem k _
  | none => exact (h.updateElem k new .noexist).2

/-- A key's record after an upsert at that key is its old record merged, or the new record
where it had none. -/
theorem lookupElem_upsert_self_cases {m : BpfMap K R} {k : K} {merge : R → R} {new r : R}
    (h : (upsert m k merge new).lookupElem k = some r) :
    (∃ r₀, m.lookupElem k = some r₀ ∧ r = merge r₀) ∨ (m.lookupElem k = none ∧ r = new) := by
  by_cases hroom : m.HasRoom k
  · rw [lookupElem_upsert _ _ hroom, if_pos rfl] at h
    cases hk : m.lookupElem k with
    | none => simp_all
    | some r₀ => exact .inl ⟨r₀, rfl, by simp_all⟩
  · rw [upsert_of_not_hasRoom _ _ hroom] at h
    exact absurd (hasRoom_of_lookupElem h) hroom

/-- Where the key fits, it has a record after the upsert. -/
theorem hasRoom_upsert_self {m : BpfMap K R} {k : K} (merge : R → R) (new : R) (h : m.HasRoom k) :
    (upsert m k merge new).HasRoom k :=
  hasRoom_of_lookupElem (r := (m.lookupElem k).elim new merge) (by rw [lookupElem_upsert _ _ h, if_pos rfl])

/-- Samples all on one key that fits drop nothing. -/
theorem noDrop_replicate (merge : X → R → R) (new : X → R) (kx : K × X) :
    ∀ (n : Nat) (m : BpfMap K R), m.HasRoom kx.1 → NoDrop merge new m (List.replicate n kx)
  | 0, _, _ => trivial
  | n + 1, _, h => ⟨h, noDrop_replicate merge new kx n _ (hasRoom_upsert_self _ _ h)⟩

/-- An upsert never changes a table's capacity. -/
@[simp] theorem maxEntries_upsert (m : BpfMap K R) (k : K) (merge : R → R) (new : R) :
    (upsert m k merge new).maxEntries = m.maxEntries := by
  unfold upsert; split <;> simp

/-- Each key's record is its own samples absorbed in arrival order, when none is dropped. -/
theorem lookupElem_foldl_upsertSample (merge : X → R → R) (new : X → R) :
    ∀ (m : BpfMap K R) (xs : List (K × X)), NoDrop merge new m xs → ∀ k,
      (xs.foldl (upsertSample merge new) m).lookupElem k =
        ((xs.filter (·.1 = k)).map (·.2)).foldl (absorb merge new) (m.lookupElem k)
  | _, [], _, _ => rfl
  | m, kx :: xs, ⟨hroom, hrest⟩, k => by
    rw [List.foldl_cons, lookupElem_foldl_upsertSample merge new _ xs hrest k,
      upsertSample, lookupElem_upsert _ _ hroom]
    by_cases hk : kx.1 = k
    · subst hk; simp [absorb]
    · simp [hk, Ne.symm hk]

end Upsert

/-- A handler seen through the one accumulation table it upserts into. -/
structure AccumProgram (S E K X R : Type) [DecidableEq K] where
  /-- The handler's accumulation table within its state. -/
  accum : S → BpfMap K R
  /-- One invocation of the handler, as the code runs it. -/
  step : S → E → S
  /-- The samples the invocation hands to the insert-or-merge code, after its filters. -/
  admitted : S → E → List (K × X)
  /-- The in-place update of an existing record by one sample. -/
  merge : X → R → R
  /-- The record the insert branch builds from one sample. -/
  new : X → R
  /-- The invocation's whole effect on the table is folding in its admitted samples. -/
  step_accum : ∀ s e, accum (step s e) = (admitted s e).foldl (upsertSample merge new) (accum s)

namespace AccumProgram

variable {S E K X R : Type} [DecidableEq K] (P : AccumProgram S E K X R)

/-- A sequential run of invocations. -/
def run (s : S) (es : List E) : S := es.foldl P.step s

/-- The samples a run hands to the insert-or-merge code, in order. -/
def samples : S → List E → List (K × X)
  | _, [] => []
  | s, e :: es => P.admitted s e ++ samples (P.step s e) es

/-- The samples of key `k` a run admits, in arrival order. -/
def samplesOf (s : S) (es : List E) (k : K) : List X :=
  ((P.samples s es).filter (·.1 = k)).map (·.2)

/-- A run's effect on the table is folding in the run's samples. -/
theorem accum_run : ∀ (s : S) (es : List E),
    P.accum (P.run s es) = (P.samples s es).foldl (upsertSample P.merge P.new) (P.accum s)
  | _, [] => rfl
  | s, e :: es => by
    simp only [run, List.foldl_cons, samples, List.foldl_append, ← P.step_accum]
    exact accum_run (P.step s e) es

/-- With no insert dropped, a key's record after a run is the key's admitted samples absorbed in
arrival order into the record it held before. -/
theorem lookupElem_run (s : S) (es : List E)
    (h : NoDrop P.merge P.new (P.accum s) (P.samples s es)) (k : K) :
    (P.accum (P.run s es)).lookupElem k =
      (P.samplesOf s es k).foldl (absorb P.merge P.new) ((P.accum s).lookupElem k) := by
  rw [accum_run, lookupElem_foldl_upsertSample _ _ _ _ h]
  rfl

/-- A handler whose invocation upserts at most one sample, chosen from the event alone:
`step` is the handler, `pick` its filters, key and sample. -/
def singleShot {E K X R : Type} [DecidableEq K] (step : BpfMap K R → E → BpfMap K R)
    (pick : E → Option (K × X)) (merge : X → R → R) (new : X → R)
    (h : ∀ m e, step m e = (pick e).elim m (upsertSample merge new m)) :
    AccumProgram (BpfMap K R) E K X R where
  accum := id
  step := step
  admitted _ e := (pick e).toList
  merge := merge
  new := new
  step_accum m e := by dsimp only; rw [h]; cases pick e <;> rfl

/-- The samples of a single-shot handler's run are its events' admitted samples. -/
theorem samples_singleShot {E K X R : Type} [DecidableEq K] (step : BpfMap K R → E → BpfMap K R)
    (pick : E → Option (K × X)) (merge : X → R → R) (new : X → R)
    (h : ∀ m e, step m e = (pick e).elim m (upsertSample merge new m)) :
    ∀ (m : BpfMap K R) (es : List E), (singleShot step pick merge new h).samples m es = es.filterMap pick
  | _, [] => rfl
  | m, e :: es => by
    rw [samples, samples_singleShot step pick merge new h _ es, List.filterMap_cons]
    show (pick e).toList ++ _ = _
    cases pick e <;> rfl

end AccumProgram

end XtopEbpf.Accumulate
