import XtopEbpf.Descriptive

/-!
# Map keys

A key is built from the event's identity: `sockio_key` and `rtt_key` from the
remote address and the port swapped to host order, `sc_key` and `ptrace_key`
from a pid and a `long` argument cut to 32 bits, `state_key` from two `int`
states cut to 16 bits. Each is injective on the values those identities take.
`modload.c` keys a module by the first 8 bytes of its name read into a zeroed
56-byte buffer: two names share a key exactly when they share those bytes,
and a record counts the loads of every module with its prefix, keeping the
first one's name. `rq_key`'s designated initializer sets `dev` and `sector`
only, so its 4 padding bytes are what the stack held: an issue and a
completion of one request share a key only when those bytes agree, where
`sockio_key` and `rtt_key` name their padding `pad` and the initializer zeroes
it.
`tcpreset.c` alone stores `skc_dport` as it is, in network order, where the
other socket paths swap it to host order.
-/

namespace XtopEbpf.Keys

open Runtime Accumulate Summary Watchdog Tcp BlockIo Counters Records Descriptive

/-- `__builtin_bswap16` is injective. -/
theorem bswap16_inj {a b : U16} : bswap16 a = bswap16 b ↔ a = b :=
  ⟨fun h => by rw [← bswap16_bswap16 a, h, bswap16_bswap16], congrArg bswap16⟩

/-- Cutting a value below `2^k` to `k` bits keeps it. -/
theorem setWidth_inj_of_lt {w k : Nat} {a b : BitVec w} (ha : a.toNat < 2 ^ k) (hb : b.toNat < 2 ^ k) :
    a.setWidth k = b.setWidth k ↔ a = b := by
  rw [BitVec.toNat_eq, BitVec.toNat_eq, BitVec.toNat_setWidth, BitVec.toNat_setWidth,
    Nat.mod_eq_of_lt ha, Nat.mod_eq_of_lt hb]

/-- Little-endian bytes, first one lowest. -/
def leValue (bs : List U8) : Nat := bs.foldr (fun b acc => b.toNat + 256 * acc) 0

/-- `n` bytes hold less than `256^n`. -/
theorem leValue_lt : ∀ bs : List U8, leValue bs < 256 ^ bs.length
  | [] => by simp [leValue]
  | b :: bs => by
    have ih := leValue_lt bs
    have hb : b.toNat < 256 := b.isLt
    simp only [leValue, List.foldr_cons, List.length_cons, pow_succ] at ih ⊢
    omega

/-- Byte strings of one length are told apart by their little-endian value. -/
theorem leValue_inj : ∀ bs cs : List U8, bs.length = cs.length → leValue bs = leValue cs → bs = cs
  | [], [], _, _ => rfl
  | b :: bs, c :: cs, hl, h => by
    simp only [leValue, List.foldr_cons] at h
    have hb : b.toNat < 256 := b.isLt
    have hc : c.toNat < 256 := c.isLt
    have hbc : b.toNat = c.toNat := by omega
    have hrest : leValue bs = leValue cs := by unfold leValue; omega
    rw [BitVec.toNat_eq.mpr hbc, leValue_inj bs cs (by simpa using hl) hrest]

/-- The name buffer has its 56 bytes. -/
theorem length_readName (modName : List U8) : (Modload.readName modName).length = 56 :=
  length_readStrInto _ _ (by simp)

/-- Two names read into the buffer share a `mod_accum` key exactly when they share their first
8 bytes. -/
theorem nameKey_readName_eq_iff (a b : List U8) :
    Modload.nameKey (Modload.readName a) = Modload.nameKey (Modload.readName b) ↔
      (Modload.readName a).take 8 = (Modload.readName b).take 8 := by
  have hla : ((Modload.readName a).take 8).length = 8 := by simp [length_readName]
  have hlb : ((Modload.readName b).take 8).length = 8 := by simp [length_readName]
  have hva := leValue_lt ((Modload.readName a).take 8)
  have hvb := leValue_lt ((Modload.readName b).take 8)
  rw [hla] at hva
  rw [hlb] at hvb
  refine ⟨fun h => leValue_inj _ _ (hla.trans hlb.symm) ?_, fun h => by rw [Modload.nameKey, h]; rfl⟩
  have h' := congrArg BitVec.toNat h
  simp only [Modload.nameKey, BitVec.toNat_ofNat] at h'
  rwa [Nat.mod_eq_of_lt (by simpa using hva), Nat.mod_eq_of_lt (by simpa using hvb)] at h'

/-- A run's samples on a `mod_accum` key are those of the loads of modules whose names have the
key as their first 8 bytes, in order. -/
theorem samplesOf_modload (es : List (List U8 × U64)) (k : U64) :
    modload.samplesOf Modload.init es k =
      (es.filter fun e => Modload.nameKey (Modload.readName e.1) = k).map fun e =>
        (Modload.keyedSample e).2 := by
  unfold modload
  simp only [AccumProgram.samplesOf, AccumProgram.samples_singleShot, List.filterMap_eq_map,
    List.filter_map, List.map_map]
  rfl

/-- With no insert dropped, a `mod_accum` record counts the loads of every module whose name has
the record's key as its first 8 bytes. -/
theorem modload_count_by_prefix (es : List (List U8 × U64))
    (hnd : NoDrop modload.merge modload.new (modload.accum Modload.init) (modload.samples Modload.init es))
    (k : U64) (r : ModVal) (hr : (modload.run Modload.init es).lookupElem k = some r) :
    r.count.toNat = (es.filter fun e => Modload.nameKey (Modload.readName e.1) = k).length % 2 ^ 64 := by
  have h := (summaryLaw modload Modload.init (BpfMap.lookupElem_empty _) modRules_respected es hnd k).2
    r hr _ (List.mem_singleton_self _)
  simpa [Rule.Holds, countRule, samplesOf_modload, Function.comp_def, List.map_const',
    List.sum_replicate] using h

/-- Over every run, a `mod_accum` record keeps the name of the first module loaded under its
key: only the insert branch writes the name. -/
theorem modload_name_first (es : List (List U8 × U64)) (k : U64) (r : ModVal)
    (hr : (modload.run Modload.init es).lookupElem k = some r) :
    (es.filter fun e => Modload.nameKey (Modload.readName e.1) = k).head?.map
      (fun e => Modload.readName e.1) = some r.name := by
  have hlaw : FirstWriteLaw modload Modload.init (·.name) (·.name) :=
    firstWriteLaw _ _ (BpfMap.lookupElem_empty _) ⟨fun _ => rfl, fun _ _ => rfl⟩
  have h := hlaw es k r hr
  rw [samplesOf_modload, List.head?_map, Option.map_map] at h
  exact h

/-- The keys of every map: `rq_key` is its device, its padding bytes and its sector;
`sockio_key` and `rtt_key` are injective in the remote endpoint with the port swapped to host
order, `sc_key` and `ptrace_key` in a pid and an argument below `2^32`, `state_key` in two states
below `2^16`; `mod_accum` keys a module by the first 8 bytes of its name, so a record counts the
loads of every module with that prefix and keeps the first one's name. -/
theorem keys_encode_identity_up_to_name_prefix :
    (∀ d d' (s s' : U64) (p p' : U32), Iolatency.keyOf d s p = Iolatency.keyOf d' s' p' ↔
      d = d' ∧ s = s' ∧ p = p') ∧
    (∀ p p' sk sk', Sockio.keyOf p sk = Sockio.keyOf p' sk' ↔
      p = p' ∧ sk.skcDaddr = sk'.skcDaddr ∧ sk.skcDport = sk'.skcDport) ∧
    (∀ sk sk', Tcprtt.keyOf sk = Tcprtt.keyOf sk' ↔
      sk.skcDaddr = sk'.skcDaddr ∧ sk.skcDport = sk'.skcDport) ∧
    (∀ p p' (a b : U64), a.toNat < 2 ^ 32 → b.toNat < 2 ^ 32 →
      (ScKey.mk p (a.setWidth 32) = ScKey.mk p' (b.setWidth 32) ↔ p = p' ∧ a = b)) ∧
    (∀ t t' (a b : U64), a.toNat < 2 ^ 32 → b.toNat < 2 ^ 32 →
      (PtraceKey.mk t (a.setWidth 32) = PtraceKey.mk t' (b.setWidth 32) ↔ t = t' ∧ a = b)) ∧
    (∀ o n o' n' : U32, o.toNat < 2 ^ 16 → n.toNat < 2 ^ 16 → o'.toNat < 2 ^ 16 → n'.toNat < 2 ^ 16 →
      (Sockstate.keyOf o n = Sockstate.keyOf o' n' ↔ o = o' ∧ n = n')) ∧
    (∀ a b, Modload.nameKey (Modload.readName a) = Modload.nameKey (Modload.readName b) ↔
      (Modload.readName a).take 8 = (Modload.readName b).take 8) ∧
    (∀ es, NoDrop modload.merge modload.new (modload.accum Modload.init) (modload.samples Modload.init es) →
      ∀ k r, (modload.run Modload.init es).lookupElem k = some r →
        r.count.toNat = (es.filter fun e => Modload.nameKey (Modload.readName e.1) = k).length % 2 ^ 64) ∧
    ∀ es k r, (modload.run Modload.init es).lookupElem k = some r →
      (es.filter fun e => Modload.nameKey (Modload.readName e.1) = k).head?.map
        (fun e => Modload.readName e.1) = some r.name := by
  refine ⟨fun d d' s s' p p' => ?_, fun p p' sk sk' => ?_, fun sk sk' => ?_,
    fun p p' a b ha hb => ?_, fun t t' a b ha hb => ?_, fun o n o' n' ho hn ho' hn' => ?_,
    nameKey_readName_eq_iff, modload_count_by_prefix, modload_name_first⟩
  · simp only [Iolatency.keyOf, RqKey.mk.injEq]
    tauto
  · simp [Sockio.keyOf, bswap16_inj]
  · simp [Tcprtt.keyOf, bswap16_inj]
  · simp [setWidth_inj_of_lt ha hb]
  · simp [setWidth_inj_of_lt ha hb]
  · simp [Sockstate.keyOf, setWidth_inj_of_lt ho ho', setWidth_inj_of_lt hn hn']

/-- `name` as the bytes of its ASCII characters. -/
def ascii (name : String) : List U8 := name.toList.map fun c => BitVec.ofNat 8 c.toNat

/-- `nf_conntrack` and then `nf_conntrack_ftp` are loaded once each: they share one record,
which counts two loads under the first name. -/
theorem modload_names_sharing_prefix_share_record :
    Modload.readName (ascii "nf_conntrack") ≠ Modload.readName (ascii "nf_conntrack_ftp") ∧
      Modload.nameKey (Modload.readName (ascii "nf_conntrack")) =
        Modload.nameKey (Modload.readName (ascii "nf_conntrack_ftp")) ∧
      (modload.run Modload.init [(ascii "nf_conntrack", 1), (ascii "nf_conntrack_ftp", 2)]).lookupElem
        (Modload.nameKey (Modload.readName (ascii "nf_conntrack"))) =
          some ⟨2, 2, Modload.readName (ascii "nf_conntrack")⟩ := by
  decide

/-! ## Remote ports -/

/-- A socket connected to port 80 of 127.0.0.1: `skc_dport` holds the port's bytes in network
order, `0x00 0x50`, which a little-endian load reads as `0x5000`. -/
def localHttp : Sock := ⟨0x0100007F, 0x5000, 800⟩

/-- Pid 7's reset on that socket records port `0x5000`, while its send, its receive and the
socket's RTT sample are keyed by port 80. -/
theorem tcpreset_dport_unswapped :
    ((Tcpreset.handleTcpSendReset Tcpreset.init 0x700000007 localHttp).lookupElem 7).map
        (·.lastDport) = some 0x5000 ∧
      (Sockio.handleTcpSendmsg Sockio.init 0x700000007 localHttp 100).sockioAccum.lookupElem
        ⟨7, 0x0100007F, 80, 0⟩ ≠ none ∧
      ((Sockio.handleTcpRecvmsgEnter Sockio.init 0x700000007 localHttp 1000).recvInflight.lookupElem
        7).map (·.dport) = some 80 ∧
      (Tcprtt.handleTcpRcvEstablished Tcprtt.init 0x700000007 localHttp).lookupElem
        ⟨0x0100007F, 80, 0⟩ ≠ none := by
  decide

end XtopEbpf.Keys
