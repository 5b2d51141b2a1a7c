import XtopEbpf.Records

/-!
# Descriptive fields: which sample a record shows

Besides its summary fields, a record keeps descriptive fields: a timestamp, an
endpoint, a pid or a name taken from a sample. Most handlers set them in both
the merge and the insert branch, so a record shows the last sample merged into
it. Two set them in the insert branch only: `iolatency.c`'s `dev` and
`modload.c`'s `name` keep the first sample of their key. Both laws hold over
every sequential run from the empty table, with or without dropped inserts: a
key whose insert is dropped never gets a record later, since the table stays
full.
-/

namespace XtopEbpf.Descriptive

open Runtime Accumulate Summary Pairing Tcp BlockIo Counters Records

section Upsert

variable {K R X : Type} [DecidableEq K]

/-- A key with no room keeps having none: an upsert into a full table only rewrites a present
key. -/
theorem not_hasRoom_upsert {m : BpfMap K R} {k k' : K} (merge : R → R) (new : R)
    (h : ¬ m.HasRoom k) : ¬ (upsert m k' merge new).HasRoom k := by
  by_cases hroom : m.HasRoom k'
  · have hk' : k' ∈ m.elems := hroom.resolve_right fun hs => h (.inr hs)
    have hne : k ≠ k' := fun e => h (.inl (e ▸ hk'))
    obtain ⟨r, hr⟩ := Option.ne_none_iff_exists'.mp (BpfMap.mem_iff_lookupElem.mp hk')
    rw [upsert_of_lookupElem _ _ hr, BpfMap.writeElem_of_mem _ _ _ hk']
    rintro (hmem | hsize)
    · rw [BpfMap.mem_iff_lookupElem, BpfMap.lookupElem_put, if_neg hne] at hmem
      exact h (.inl (BpfMap.mem_iff_lookupElem.mpr hmem))
    · rw [BpfMap.size_put_of_mem _ _ _ _ hk'] at hsize
      exact h (.inr hsize)
  · rwa [upsert_of_not_hasRoom _ _ hroom]

/-- A key with no room never gets a record, whatever samples follow. -/
theorem lookupElem_foldl_of_not_hasRoom {merge : X → R → R} {new : X → R} :
    ∀ (m : BpfMap K R) (xs : List (K × X)) (k : K), ¬ m.HasRoom k →
      (xs.foldl (upsertSample merge new) m).lookupElem k = none
  | _, [], _, h => by
    by_contra hne
    exact h (.inl (BpfMap.mem_iff_lookupElem.mpr hne))
  | _, _ :: xs, k, h => lookupElem_foldl_of_not_hasRoom _ xs k (not_hasRoom_upsert _ _ h)

end Upsert

section Laws

variable {S E K X R D : Type} [DecidableEq K] (P : AccumProgram S E K X R)

/-- Every record of the table satisfies `inv`. -/
def AllRecords (inv : R → Prop) (m : BpfMap K R) : Prop := ∀ k r, m.lookupElem k = some r → inv r

/-- Fields `d` that both branches set from the sample, as `dx` reads them off it, on records
satisfying `inv`, which both branches establish. -/
structure LastWrite (inv : R → Prop) (d : R → D) (dx : X → D) : Prop where
  /-- The insert branch builds a record satisfying `inv`. -/
  inv_new : ∀ x, inv (P.new x)
  /-- The merge branch keeps `inv`. -/
  inv_merge : ∀ x r, inv r → inv (P.merge x r)
  /-- The insert branch sets the fields from its sample. -/
  new_eq : ∀ x, d (P.new x) = dx x
  /-- The merge branch sets the fields from its sample. -/
  merge_eq : ∀ x r, inv r → d (P.merge x r) = dx x

/-- Fields that both branches set from the sample on every record. -/
theorem LastWrite.of_eq {d : R → D} {dx : X → D} (hn : ∀ x, d (P.new x) = dx x)
    (hm : ∀ x r, d (P.merge x r) = dx x) : LastWrite P (fun _ => True) d dx :=
  ⟨fun _ => trivial, fun _ _ _ => trivial, hn, fun x r _ => hm x r⟩

/-- Fields `d` that only the insert branch sets, from the sample as `dx` reads them off it. -/
structure FirstWrite (d : R → D) (dx : X → D) : Prop where
  /-- The insert branch sets the fields from its sample. -/
  new_eq : ∀ x, d (P.new x) = dx x
  /-- The merge branch leaves the fields alone. -/
  merge_eq : ∀ x r, d (P.merge x r) = d r

/-- Upserting a sample keeps a property of every record that both branches establish. -/
theorem allRecords_upsertSample {inv : R → Prop} {d : R → D} {dx : X → D}
    (hw : LastWrite P inv d dx) {m : BpfMap K R} (hm : AllRecords inv m) (kx : K × X) :
    AllRecords inv (upsertSample P.merge P.new m kx) := by
  intro k r hr
  by_cases hk : kx.1 = k
  · subst hk
    rcases lookupElem_upsert_self_cases hr with ⟨r₀, h₀, rfl⟩ | ⟨-, rfl⟩
    · exact hw.inv_merge _ _ (hm _ _ h₀)
    · exact hw.inv_new _
  · rw [upsertSample, lookupElem_upsert_of_ne _ _ hk] at hr
    exact hm _ _ hr

/-- Folding samples into a table: a key's record shows its last sample, or, if it had none,
the fields it held before. -/
theorem lastWrite_foldl {inv : R → Prop} {d : R → D} {dx : X → D} (hw : LastWrite P inv d dx) :
    ∀ (m : BpfMap K R) (xs : List (K × X)) (k : K) (r : R), AllRecords inv m →
      (xs.foldl (upsertSample P.merge P.new) m).lookupElem k = some r →
      (((xs.filter (·.1 = k)).map (·.2)).getLast?.map dx).or ((m.lookupElem k).map d) =
        some (d r)
  | _, [], _, _, _, h => by rw [List.foldl_nil] at h; simp [h]
  | m, kx :: xs, k, r, hm, h => by
    have ih := lastWrite_foldl hw _ xs k r (allRecords_upsertSample P hw hm kx) h
    by_cases hk : kx.1 = k
    · subst hk
      rw [List.filter_cons_of_pos (by simp), List.map_cons, List.getLast?_cons, Option.map_some',
        Option.or_some]
      cases hl : ((xs.filter (·.1 = kx.1)).map (·.2)).getLast? with
      | some y => simpa [hl] using ih
      | none =>
        obtain ⟨r', hr', hd⟩ : ∃ r', (upsertSample P.merge P.new m kx).lookupElem kx.1 = some r' ∧
            d r' = d r := by simpa [hl] using ih
        rw [← hd]
        rcases lookupElem_upsert_self_cases hr' with ⟨r₀, h₀, rfl⟩ | ⟨-, rfl⟩
        · exact congrArg some (hw.merge_eq _ _ (hm _ _ h₀)).symm
        · exact congrArg some (hw.new_eq _).symm
    · rw [upsertSample, lookupElem_upsert_of_ne _ _ hk] at ih
      simpa [hk] using ih

/-- Folding samples into a table: a key's record keeps the fields it held, or, if it had none,
those of its first sample. -/
theorem firstWrite_foldl {d : R → D} {dx : X → D} (hw : FirstWrite P d dx) :
    ∀ (m : BpfMap K R) (xs : List (K × X)) (k : K) (r : R),
      (xs.foldl (upsertSample P.merge P.new) m).lookupElem k = some r →
      ((m.lookupElem k).map d).or (((xs.filter (·.1 = k)).map (·.2)).head?.map dx) = some (d r)
  | _, [], _, _, h => by rw [List.foldl_nil] at h; simp [h]
  | m, kx :: xs, k, r, h => by
    have ih := firstWrite_foldl hw _ xs k r h
    by_cases hk : kx.1 = k
    · subst hk
      by_cases hroom : m.HasRoom kx.1
      · rw [upsertSample, lookupElem_upsert _ _ hroom, if_pos rfl] at ih
        rw [List.filter_cons_of_pos (by simp), List.map_cons, List.head?_cons, Option.map_some']
        cases hm : m.lookupElem kx.1 with
        | none => simpa [hm, hw.new_eq] using ih
        | some r₀ => simpa [hm, hw.merge_eq] using ih
      · rw [List.foldl_cons, lookupElem_foldl_of_not_hasRoom (upsertSample P.merge P.new m kx) xs kx.1
          (not_hasRoom_upsert _ _ hroom)] at h
        cases h
    · rw [upsertSample, lookupElem_upsert_of_ne _ _ hk] at ih
      simpa [hk] using ih

/-- The last-write law of fields `d` from state `init`: along every sequential run, a key's
record shows the fields of the last sample admitted for that key, as `dx` reads them. -/
def LastWriteLaw (init : S) (d : R → D) (dx : X → D) : Prop :=
  ∀ es k r, (P.accum (P.run init es)).lookupElem k = some r →
    (P.samplesOf init es k).getLast?.map dx = some (d r)

/-- The first-write law of fields `d` from state `init`: along every sequential run, a key's
record shows the fields of the first sample admitted for that key, as `dx` reads them. -/
def FirstWriteLaw (init : S) (d : R → D) (dx : X → D) : Prop :=
  ∀ es k r, (P.accum (P.run init es)).lookupElem k = some r →
    (P.samplesOf init es k).head?.map dx = some (d r)

/-- Fields both branches set follow the last sample, from the empty table. -/
theorem lastWriteLaw (init : S) (hinit : ∀ k, (P.accum init).lookupElem k = none)
    {inv : R → Prop} {d : R → D} {dx : X → D} (hw : LastWrite P inv d dx) :
    LastWriteLaw P init d dx := by
  intro es k r hr
  rw [P.accum_run] at hr
  have h := lastWrite_foldl P hw _ _ k r (fun k r h => by simp [hinit k] at h) hr
  rw [hinit k, Option.map_none', Option.or_none] at h
  exact h

/-- Fields only the insert branch sets keep the first sample, from the empty table. -/
theorem firstWriteLaw (init : S) (hinit : ∀ k, (P.accum init).lookupElem k = none)
    {d : R → D} {dx : X → D} (hw : FirstWrite P d dx) : FirstWriteLaw P init d dx := by
  intro es k r hr
  rw [P.accum_run] at hr
  have h := firstWrite_foldl P hw _ _ k r hr
  rw [hinit k, Option.map_none', Option.none_or] at h
  exact h

end Laws

/-! ## Strings up to their NUL -/

/-- The string a NUL-terminated buffer holds. -/
def cstr (bs : List U8) : List U8 := bs.takeWhile (· ≠ 0)

/-- A string read into a buffer holds the source string, cut to the buffer's length less the
NUL, whatever the buffer held before. -/
theorem cstr_readStrInto (buf src : List U8) :
    cstr (readStrInto buf src) = (cstr src).take (buf.length - 1) := by
  unfold cstr readStrInto
  rw [List.takeWhile_append_of_pos fun a ha => List.mem_takeWhile_imp (p := fun x => decide (x ≠ 0)) (List.mem_of_mem_take ha),
    List.takeWhile_cons]
  simp

/-! ## The handlers' descriptive fields -/

/-- The fields `exec_val` keeps besides its count, the filename as the string it holds. -/
def execFields (r : ExecVal) : U64 × U32 × U32 × List U8 × List U8 :=
  (r.ts, r.ppid, r.uid, r.comm, cstr r.filename)

/-- The same fields of an exec as the handler reads them, the filename through its 128-byte
buffer. -/
def execEventFields (e : Execsnoop.Event) : U64 × U32 × U32 × List U8 × List U8 :=
  (e.now, e.ppid, e.uidGid.setWidth 32, e.comm, (cstr e.filename).take 127)

/-- Both branches of `execsnoop.c` write every descriptive field; the merge branch reads the
filename into the record's own 128-byte buffer. -/
theorem execsnoop_lastWrite :
    LastWrite execsnoop (fun r => r.filename.length = 128) execFields execEventFields where
  inv_new _ := (length_readStrInto _ _ (by simp)).trans (List.length_replicate _ _)
  inv_merge _ _ h := (length_readStrInto _ _ (by omega)).trans h
  new_eq _ := by simp [execsnoop, AccumProgram.singleShot, Execsnoop.new, execFields,
    execEventFields, cstr_readStrInto]
  merge_eq _ _ h := by simp [execsnoop, AccumProgram.singleShot, Execsnoop.merge, execFields,
    execEventFields, cstr_readStrInto, h]

/-- Over every run, the descriptive fields of the records hold what the latest merged sample
wrote there, except `modload.c`'s `name` and `iolatency.c`'s `dev`, which keep the first
sample's. -/
theorem descriptive_fields_follow_their_writes :
    LastWriteLaw execsnoop Execsnoop.init execFields execEventFields ∧
    LastWriteLaw ptracedetect Ptracedetect.init (fun r => (r.ts, r.request, r.tracerComm))
      (fun x => (x.ts, x.request, x.comm)) ∧
    LastWriteLaw tcpreset Tcpreset.init (fun r => (r.lastDaddr, r.lastDport)) id ∧
    LastWriteLaw tcpretrans Tcpretrans.init (fun r => (r.lastSport, r.lastDport, r.lastDaddr))
      (fun e => (e.sport, e.dport, e.daddr)) ∧
    LastWriteLaw tcpconnlat.toAccumProgram Tcpconnlat.init (fun r => (r.lastPid, r.daddr))
      (fun x => (x.pid, x.daddr)) ∧
    LastWriteLaw tcprtt Tcprtt.init (·.lastPid) (·.pid) ∧
    LastWriteLaw modload Modload.init (·.ts) (·.ts) ∧
    FirstWriteLaw modload Modload.init (·.name) (·.name) ∧
    FirstWriteLaw iolatency.toAccumProgram Iolatency.init (·.dev) (·.dev) :=
  ⟨lastWriteLaw _ _ (BpfMap.lookupElem_empty _) execsnoop_lastWrite,
    lastWriteLaw _ _ (BpfMap.lookupElem_empty _) (.of_eq _ (fun _ => rfl) fun _ _ => rfl),
    lastWriteLaw _ _ (BpfMap.lookupElem_empty _) (.of_eq _ (fun _ => rfl) fun _ _ => rfl),
    lastWriteLaw _ _ (BpfMap.lookupElem_empty _) (.of_eq _ (fun _ => rfl) fun _ _ => rfl),
    lastWriteLaw _ _ (BpfMap.lookupElem_empty _) (.of_eq _ (fun _ => rfl) fun _ _ => rfl),
    lastWriteLaw _ _ (BpfMap.lookupElem_empty _) (.of_eq _ (fun _ => rfl) fun _ _ => rfl),
    lastWriteLaw _ _ (BpfMap.lookupElem_empty _) (.of_eq _ (fun _ => rfl) fun _ _ => rfl),
    firstWriteLaw _ _ (BpfMap.lookupElem_empty _) ⟨fun _ => rfl, fun _ _ => rfl⟩,
    firstWriteLaw _ _ (BpfMap.lookupElem_empty _) ⟨fun _ => rfl, fun _ _ => rfl⟩⟩

/-- Pid 7 completes a request on device 1, then one on device 2. -/
def twoDeviceRequests : List Iolatency.Event :=
  [.blockRqIssue 1 0 0x700000007 0 0, .blockRqComplete 1 0 1000 0,
    .blockRqIssue 2 0 0x700000007 2000 0, .blockRqComplete 2 0 5000 0]

/-- Pid 7's record keeps device 1 after its second request completes on device 2. -/
theorem iolatency_dev_stays_first_device :
    (iolatency.toAccumProgram.samplesOf Iolatency.init twoDeviceRequests 7).getLast?.map (·.dev) =
        some 2 ∧
      ((iolatency.toAccumProgram.accum
        (iolatency.toAccumProgram.run Iolatency.init twoDeviceRequests)).lookupElem 7).map
          (·.dev) = some 1 := by
  decide

end XtopEbpf.Descriptive
