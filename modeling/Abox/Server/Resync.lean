import Abox.Server.Chunking

/-!
# Frames behind a damaged one

A frame whose checksum is wrong stays at the front of the buffer until more than
`BUFF_LEN` bytes have come in behind it; then all of them are thrown away. The
frames that follow it get through only if that happens exactly where the damage
ends, or inside it.

* `recvAll_iff`: from any place of the stream, the frames behind the damage are
  handled if and only if the parser gets to the end of the damage.
* `resync_iff`: the same for a stream that starts with a damaged frame.
-/

namespace Abox.Server

/-! ## Specification -/

/-- The numbers of bytes that have arrived after each chunk, with `r` before the
    first one. -/
def endsFrom (r : ℕ) : List (List Byte) → List ℕ
  | [] => []
  | chunk :: chunks => (r + chunk.length) :: endsFrom (r + chunk.length) chunks

/-- `r` is the first of the `ends` more than `BUFF_LEN` bytes behind `p`. -/
structure FirstEnd (ends : List ℕ) (p r : ℕ) : Prop where
  mem : r ∈ ends
  lt : p + buffLen < r
  le : ∀ r' ∈ ends, p + buffLen < r' → r ≤ r'

/-- With the first byte in the buffer being byte `p` of the stream `w`, the
    parser gets to byte `e`: over bytes that start no frame, over frames that end
    before `e`, and from a place where it is stuck to the first end of a chunk
    that is more than `BUFF_LEN` bytes behind. -/
inductive Resyncs (w : List Byte) (ends : List ℕ) (e : ℕ) : ℕ → Prop
  | here : Resyncs w ends e e
  | junk {p : ℕ} : p < e → verdict (w.drop p) = .junk → Resyncs w ends e (p + 1) →
    Resyncs w ends e p
  | frame {p len : ℕ} : p < e → verdict (w.drop p) = .frame len →
    (∀ r ∈ ends, p + buffLen < r → p + len ≤ r) → Resyncs w ends e (p + len) →
    Resyncs w ends e p
  | flush {p r : ℕ} : p < e → verdict (w.drop p) ≠ .junk → FirstEnd ends p r →
    (∀ len, verdict (w.drop p) = .frame len → r < p + len) → Resyncs w ends e r →
    Resyncs w ends e p

/-- Frames one behind the other, each with the number of bytes before it. -/
def offsets (o : ℕ) : List (List Byte) → List (ℕ × List Byte)
  | [] => []
  | f :: fs => (o, f) :: offsets (o + f.length) fs

/-- The stream `w` starts with the damaged frame `d`. -/
structure Damaged (d w : List Byte) : Prop where
  head : IsHead (d.getD 0 0)
  damage : ModbusCrc16 (w.take (claimedLen w)) ≠ 0 ∨ d.length < claimedLen w

/-! ## The way to the end of the damage -/

section

variable {w : List Byte} {ends : List ℕ} {e : ℕ}

theorem Resyncs.le {p : ℕ} (h : Resyncs w ends e p) : p ≤ e := by
  cases h with
  | here => exact le_rfl
  | junk hp _ _ => exact Nat.le_of_lt hp
  | frame hp _ _ _ => exact Nat.le_of_lt hp
  | flush hp _ _ _ _ => exact Nat.le_of_lt hp

theorem FirstEnd.unique {p r r' : ℕ} (h : FirstEnd ends p r) (h' : FirstEnd ends p r') : r = r' :=
  Nat.le_antisymm (h.le r' h'.mem h'.lt) (h'.le r h.mem h.lt)

theorem resyncs_junk {p : ℕ} (hp : p < e) (hv : verdict (w.drop p) = .junk) :
    Resyncs w ends e p ↔ Resyncs w ends e (p + 1) := by
  refine ⟨fun h => ?_, .junk hp hv⟩
  cases h with
  | here => exact absurd hp (Nat.lt_irrefl _)
  | junk _ _ h => exact h
  | frame _ hv' _ _ => cases hv.symm.trans hv'
  | flush _ hv' _ _ _ => exact absurd hv hv'

theorem resyncs_frame {p len : ℕ} (hp : p < e) (hv : verdict (w.drop p) = .frame len)
    (hends : ∀ r ∈ ends, p + buffLen < r → p + len ≤ r) :
    Resyncs w ends e p ↔ Resyncs w ends e (p + len) := by
  refine ⟨fun h => ?_, .frame hp hv hends⟩
  cases h with
  | here => exact absurd hp (Nat.lt_irrefl _)
  | junk _ hv' _ => cases hv.symm.trans hv'
  | frame _ hv' _ h =>
    cases hv.symm.trans hv'
    exact h
  | flush _ _ hfirst hlt _ =>
    have h1 := hends _ hfirst.mem hfirst.lt
    have h2 := hlt len hv
    omega

theorem resyncs_flush {p r : ℕ} (hp : p < e) (hv : verdict (w.drop p) ≠ .junk)
    (hfirst : FirstEnd ends p r) (hlt : ∀ len, verdict (w.drop p) = .frame len → r < p + len) :
    Resyncs w ends e p ↔ Resyncs w ends e r := by
  refine ⟨fun h => ?_, .flush hp hv hfirst hlt⟩
  cases h with
  | here => exact absurd hp (Nat.lt_irrefl _)
  | junk _ hv' _ => exact absurd hv' hv
  | frame _ hv' hends _ =>
    have h1 := hends _ hfirst.mem hfirst.lt
    have h2 := hlt _ hv'
    omega
  | flush _ _ hfirst' _ h =>
    rw [hfirst.unique hfirst']
    exact h

/-- A parser that is stuck and gets no more bytes stays where it is. -/
theorem not_resyncs {p : ℕ} (hp : p < e) (hv : Stops (w.drop p))
    (hends : ∀ r ∈ ends, r ≤ p + buffLen) : ¬ Resyncs w ends e p := by
  intro h
  cases h with
  | here => exact absurd hp (Nat.lt_irrefl _)
  | junk _ hv' _ => rcases hv with hv | hv <;> cases hv.symm.trans hv'
  | frame _ hv' _ _ => rcases hv with hv | hv <;> cases hv.symm.trans hv'
  | flush _ _ hfirst _ _ =>
    have h1 := hends _ hfirst.mem
    have h2 := hfirst.lt
    omega

end

theorem le_of_mem_endsFrom {r r' : ℕ} {chunks : List (List Byte)} (h : r' ∈ endsFrom r chunks) :
    r ≤ r' := by
  induction chunks generalizing r with
  | nil => cases h
  | cons chunk chunks ih =>
    rcases List.mem_cons.1 h with rfl | h
    · exact Nat.le_add_right _ _
    · exact le_trans (Nat.le_add_right _ _) (ih h)

/-- What is seen of a frame that is not complete stays true. -/
theorem wait_append {data : List Byte} (h : verdict data = .wait) (h8 : 8 ≤ data.length)
    (more : List Byte) : verdict (data ++ more) ≠ .junk ∧
      ∀ len, verdict (data ++ more) = .frame len → data.length < len := by
  have hspec := verdict_spec data
  rw [h] at hspec
  cases hspec with
  | empty hnil =>
    rw [hnil] at h8
    exact absurd h8 (by decide)
  | incomplete hhead hlt =>
    constructor
    · intro hj
      have hspec' := verdict_spec (data ++ more)
      rw [hj] at hspec'
      cases hspec' with
      | junk _ hjunk =>
        rw [getD_append_of_lt (by omega)] at hjunk
        exact hjunk hhead
    · intro len hf
      rw [(verdict_eq_frame hf).1, claimedLen, ofBytes_append h8]
      exact hlt

section

variable (appId : BitVec 32) (atStatus : ℕ → AtStatus)

/-! ## What is handled, and where -/

/-- The state only moves on, and all it handles lies ahead. -/
structure Ahead (l l' : Live) : Prop where
  offset : l.offset ≤ l'.offset
  log : ∀ c ∈ l'.log, c ∈ l.log ∨ l.offset ≤ c.offset

theorem Ahead.refl (l : Live) : Ahead l l := ⟨le_rfl, fun _ h => Or.inl h⟩

theorem Ahead.trans {l l' l'' : Live} (h : Ahead l l') (h' : Ahead l' l'') : Ahead l l'' := by
  refine ⟨le_trans h.offset h'.offset, fun c hc => ?_⟩
  rcases h'.log c hc with hc | hc
  · exact h.log c hc
  · exact Or.inr (le_trans h.offset hc)

theorem ahead_drop (l : Live) : Ahead l l.drop := ⟨Nat.le_succ _, fun _ h => Or.inl h⟩

theorem ahead_take (l : Live) (len : ℕ) : Ahead l (l.take appId atStatus len) := by
  refine ⟨Nat.le_add_right _ _, fun c hc => ?_⟩
  rcases List.mem_append.1 hc with hc | hc
  · exact Or.inl hc
  · rw [List.mem_singleton.1 hc]
    exact Or.inr le_rfl

theorem ahead_scan (l : Live) : Ahead l (l.scan appId atStatus) := by
  induction l using scan_induct appId atStatus with
  | junk l h ih =>
    rw [scan_of_junk h]
    exact (ahead_drop l).trans ih
  | frame l len h ih =>
    rw [scan_of_frame h]
    split_ifs with h10
    · exact (ahead_take appId atStatus l len).trans (ih h10)
    · exact ahead_take appId atStatus l len
  | stops l h =>
    rw [scan_of_stops h]
    exact Ahead.refl l

theorem ahead_flush (l : Live) : Ahead l l.flush := by
  unfold Live.flush
  split_ifs
  · exact ⟨Nat.le_add_right _ _, fun _ h => Or.inl h⟩
  · exact Ahead.refl l

theorem ahead_recvAll (l : Live) (chunks : List (List Byte)) :
    Ahead l (l.recvAll appId atStatus chunks) := by
  induction chunks generalizing l with
  | nil => exact Ahead.refl l
  | cons chunk chunks ih =>
    have hscan := ahead_scan appId atStatus { l with data := l.data ++ chunk }
    have hstart : Ahead l { l with data := l.data ++ chunk } := ⟨le_rfl, fun _ h => Or.inl h⟩
    exact ((hstart.trans hscan).trans (ahead_flush _)).trans (ih _)

/-- The rest of a call, and the calls after it. -/
def Live.finish (l : Live) (chunks : List (List Byte)) : Live :=
  (l.scan appId atStatus).flush.recvAll appId atStatus chunks

theorem finish_of_junk {l : Live} (hv : verdict l.data = .junk) (chunks : List (List Byte)) :
    l.finish appId atStatus chunks = l.drop.finish appId atStatus chunks := by
  unfold Live.finish
  rw [scan_of_junk hv]

theorem finish_of_frame {l : Live} {len : ℕ} (hv : verdict l.data = .frame len)
    (h10 : 10 ≤ (l.take appId atStatus len).data.length) (chunks : List (List Byte)) :
    l.finish appId atStatus chunks =
      (l.take appId atStatus len).finish appId atStatus chunks := by
  unfold Live.finish
  rw [scan_of_frame hv, if_pos h10]

/-- Behind the frame few bytes are left, and the call ends. -/
theorem finish_of_last_frame {l : Live} {len : ℕ} (hv : verdict l.data = .frame len)
    (h10 : ¬ 10 ≤ (l.take appId atStatus len).data.length)
    (hshort : (l.take appId atStatus len).data.length ≤ buffLen) (chunks : List (List Byte)) :
    l.finish appId atStatus chunks =
      (l.take appId atStatus len).recvAll appId atStatus chunks := by
  unfold Live.finish
  rw [scan_of_frame hv, if_neg h10, Live.flush, if_neg (Nat.not_lt.2 hshort)]

/-- Everything is thrown away. -/
theorem finish_of_full {l : Live} (hv : Stops l.data) (hfull : buffLen < l.data.length)
    (chunks : List (List Byte)) : l.finish appId atStatus chunks =
      Live.recvAll appId atStatus ⟨[], l.offset + l.data.length, l.log⟩ chunks := by
  unfold Live.finish
  rw [scan_of_stops hv, Live.flush, if_pos hfull]

theorem finish_of_stops {l : Live} (hv : Stops l.data) (hshort : l.data.length ≤ buffLen)
    (chunks : List (List Byte)) :
    l.finish appId atStatus chunks = l.recvAll appId atStatus chunks := by
  unfold Live.finish
  rw [scan_of_stops hv, Live.flush, if_neg (Nat.not_lt.2 hshort)]

theorem ahead_finish (l : Live) (chunks : List (List Byte)) :
    Ahead l (l.finish appId atStatus chunks) :=
  ((ahead_scan appId atStatus l).trans (ahead_flush _)).trans (ahead_recvAll appId atStatus _ _)

/-! ## The way over the damage -/

section

variable {w : List Byte} {ends : List ℕ} {e : ℕ} {f : List Byte} {fs : List (ℕ × List Byte)}

/-- After `r` bytes of the stream `w`: the bytes in the buffer and the chunks to
    come are the rest of it. An end of a chunk is near, or it is among `now`, or
    it is still to come. -/
structure Place (w : List Byte) (ends now : List ℕ) (r : ℕ) (l : Live)
    (chunks : List (List Byte)) : Prop where
  now_eq : l.offset + l.data.length = r
  rest : l.data ++ chunks.flatten = w.drop l.offset
  near : ∀ r' ∈ ends, r' ≤ l.offset + buffLen ∨ r' ∈ now ∨ r' ∈ endsFrom r chunks
  mem : ∀ r' ∈ endsFrom r chunks, r' ∈ ends

/-- A call starts with a chunk. -/
theorem Place.recv {l : Live} {r : ℕ} {chunk : List Byte} {chunks : List (List Byte)}
    (h : Place w ends [] r l (chunk :: chunks)) :
    Place w ends [r + chunk.length] (r + chunk.length) { l with data := l.data ++ chunk } chunks ∧
      r + chunk.length ∈ ends := by
  refine ⟨⟨?_, ?_, fun r' hr' => ?_, fun r' hr' => ?_⟩, h.mem _ (List.mem_cons_self ..)⟩
  · show l.offset + (l.data ++ chunk).length = _
    rw [List.length_append, ← Nat.add_assoc, h.now_eq]
  · have hrest := h.rest
    rw [List.flatten_cons, ← List.append_assoc] at hrest
    exact hrest
  · rcases h.near r' hr' with hr | hr | hr
    · exact Or.inl hr
    · cases hr
    · rcases List.mem_cons.1 hr with rfl | hr
      · exact Or.inr (Or.inl (List.mem_singleton_self _))
      · exact Or.inr (Or.inr hr)
  · exact h.mem r' (List.mem_cons_of_mem _ hr')

/-- The first `n` bytes leave the buffer. -/
theorem Place.skip {l l' : Live} {r n : ℕ} {now : List ℕ} {chunks : List (List Byte)}
    (h : Place w ends now r l chunks) (hn : n ≤ l.data.length) (hdata : l'.data = l.data.drop n)
    (hoff : l'.offset = l.offset + n) : Place w ends now r l' chunks := by
  have hnow := h.now_eq
  refine ⟨?_, ?_, fun r' hr' => ?_, h.mem⟩
  · rw [hdata, hoff, List.length_drop]
    omega
  · rw [hdata, hoff, ← List.drop_drop, ← h.rest, List.drop_append_of_le_length hn]
  · rcases h.near r' hr' with hr | hr
    · exact Or.inl (by omega)
    · exact Or.inr hr

/-- A call ends with at most `BUFF_LEN` bytes in the buffer. -/
theorem Place.done {l : Live} {r : ℕ} {chunks : List (List Byte)}
    (h : Place w ends [r] r l chunks) (hlen : l.data.length ≤ buffLen) :
    Place w ends [] r l chunks := by
  refine ⟨h.now_eq, h.rest, fun r' hr' => ?_, h.mem⟩
  rcases h.near r' hr' with hr | hr | hr
  · exact Or.inl hr
  · have hnow := h.now_eq
    rw [List.mem_singleton.1 hr]
    exact Or.inl (by omega)
  · exact Or.inr (Or.inr hr)

/-- The end of the last chunk is the first one that is not near. -/
theorem Place.firstEnd {l : Live} {r : ℕ} {chunks : List (List Byte)}
    (h : Place w ends [r] r l chunks) (hr : r ∈ ends) (hlen : buffLen < l.data.length) :
    FirstEnd ends l.offset r := by
  have hnow := h.now_eq
  refine ⟨hr, by omega, fun r' hr' hlt => ?_⟩
  rcases h.near r' hr' with hn | hn | hn
  · omega
  · rw [List.mem_singleton.1 hn]
  · exact le_of_mem_endsFrom hn

/-- No chunk that is not near ends inside what is already there. -/
theorem Place.far {l : Live} {r len : ℕ} {chunks : List (List Byte)}
    (h : Place w ends [r] r l chunks) (hle : len ≤ l.data.length) :
    ∀ r' ∈ ends, l.offset + buffLen < r' → l.offset + len ≤ r' := by
  have hnow := h.now_eq
  intro r' hr' hlt
  rcases h.near r' hr' with hn | hn | hn
  · omega
  · rw [List.mem_singleton.1 hn]
    omega
  · have := le_of_mem_endsFrom hn
    omega

/-- A decision other than to wait is the one about the stream. -/
theorem Place.verdict_eq {l : Live} {r : ℕ} {now : List ℕ} {chunks : List (List Byte)}
    (h : Place w ends now r l chunks) (hv : verdict l.data ≠ .wait) :
    verdict (w.drop l.offset) = verdict l.data := by
  rw [← h.rest, verdict_append _ hv]

/-- A parser that stops in front of a full buffer does so in the stream. -/
theorem Place.verdict_of_full {l : Live} {r : ℕ} {now : List ℕ} {chunks : List (List Byte)}
    (h : Place w ends now r l chunks) (hv : Stops l.data) (h8 : 8 ≤ l.data.length) :
    verdict (w.drop l.offset) ≠ .junk ∧
      ∀ len, verdict (w.drop l.offset) = .frame len → l.data.length < len := by
  rcases hv with hv | hv
  · rw [← h.rest]
    exact wait_append hv h8 _
  · rw [h.verdict_eq (by rw [hv]; simp), hv]
    exact ⟨by simp, fun _ h => by cases h⟩

/-- Between the calls the parser waits or is stuck, unless there are few bytes. -/
def Idle (l : Live) : Prop := l.data.length < 10 ∨ Stops l.data

/-- All frames of the stream are handled. -/
def AllHandled (fs : List (ℕ × List Byte)) (l : Live) : Prop :=
  ∀ x ∈ fs, handled appId atStatus x ∈ l.log

/-- No frame at `e` has been handled. -/
def Fresh (e : ℕ) (l : Live) : Prop := ∀ c ∈ l.log, c.offset ≠ e

theorem not_allHandled {l l' : Live} (hlate : e < l.offset) (hfresh : Fresh e l)
    (h : Ahead l l') : ¬ AllHandled appId atStatus ((e, f) :: fs) l' := by
  intro hall
  rcases h.log _ (hall _ (List.mem_cons_self ..)) with hc | hc
  · exact hfresh _ hc rfl
  · exact absurd hc (Nat.not_le.2 hlate)

/-- From the end of the damage on everything is handled. -/
theorem allHandled_of_here {l : Live} {chunks : List (List Byte)} {fs : List (ℕ × List Byte)}
    (h : Stream l.offset fs (l.data ++ chunks.flatten)) :
    AllHandled appId atStatus fs (l.finish appId atStatus chunks) := by
  obtain ⟨done, rest, rfl, hlog, hstream, hlen, hend⟩ := scan_stream appId atStatus h
  have hflush : (l.scan appId atStatus).flush = l.scan appId atStatus :=
    if_neg (Nat.not_lt.2 (Nat.le_of_lt hlen))
  have hall : (l.finish appId atStatus chunks).log =
      l.log ++ (done ++ rest).map (handled appId atStatus) := by
    unfold Live.finish
    rw [hflush, recvAll_stream appId atStatus hstream fun hnil => hend (by rw [hnil]; rfl), hlog,
      List.map_append, List.append_assoc]
  intro x hx
  rw [hall]
  exact List.mem_append_right _ (List.mem_map_of_mem hx)

section

-- the frames start at byte `e` of the stream
variable (hstream : Stream e ((e, f) :: fs) (w.drop e))
include hstream

theorem finish_iff_of_le {l : Live} {r : ℕ} {now : List ℕ} {chunks : List (List Byte)}
    (hplace : Place w ends now r l chunks) (hfresh : Fresh e l) (hle : e ≤ l.offset) :
    AllHandled appId atStatus ((e, f) :: fs) (l.finish appId atStatus chunks) ↔
      Resyncs w ends e l.offset := by
  rcases Nat.eq_or_lt_of_le hle with heq | hlt
  · refine iff_of_true (allHandled_of_here appId atStatus ?_) (heq ▸ .here)
    rw [hplace.rest, ← heq]
    exact hstream
  · refine iff_of_false ?_ fun h => absurd h.le (Nat.not_le.2 hlt)
    exact not_allHandled appId atStatus hlt hfresh (ahead_finish appId atStatus l chunks)

/-- A call from any place: the frames behind the damage are handled if and only
    if the parser gets to the end of the damage, if that is so between the calls. -/
theorem finish_iff {l : Live} {r : ℕ} {chunks : List (List Byte)}
    (hplace : Place w ends [r] r l chunks) (hr : r ∈ ends) (hfresh : Fresh e l)
    (hnext : ∀ l' : Live, Place w ends [] r l' chunks → Idle l' → Fresh e l' →
      (AllHandled appId atStatus ((e, f) :: fs) (l'.recvAll appId atStatus chunks) ↔
        Resyncs w ends e l'.offset)) :
    AllHandled appId atStatus ((e, f) :: fs) (l.finish appId atStatus chunks) ↔
      Resyncs w ends e l.offset := by
  induction l using scan_induct appId atStatus with
  | junk l hv ih =>
    by_cases hp : l.offset < e
    · have hw := hplace.verdict_eq (by rw [hv]; simp)
      rw [hv] at hw
      rw [finish_of_junk appId atStatus hv, resyncs_junk hp hw]
      exact ih (hplace.skip (verdict_eq_junk hv) rfl rfl) hfresh
    · exact finish_iff_of_le appId atStatus hstream hplace hfresh (Nat.le_of_not_lt hp)
  | frame l len hv ih =>
    by_cases hp : l.offset < e
    · have hle := (verdict_eq_frame hv).2.2
      have hw := hplace.verdict_eq (by rw [hv]; simp)
      rw [hv] at hw
      have htake : Place w ends [r] r (l.take appId atStatus len) chunks :=
        hplace.skip hle rfl rfl
      have hfresh' : Fresh e (l.take appId atStatus len) := by
        intro c hc
        rcases List.mem_append.1 hc with hc | hc
        · exact hfresh c hc
        · rw [List.mem_singleton.1 hc]
          exact Nat.ne_of_lt hp
      rw [resyncs_frame hp hw (hplace.far hle)]
      by_cases h10 : 10 ≤ (l.take appId atStatus len).data.length
      · rw [finish_of_frame appId atStatus hv h10]
        exact ih h10 htake hfresh'
      · have hshort : (l.take appId atStatus len).data.length ≤ buffLen :=
          le_trans (Nat.le_of_not_le h10) (by decide)
        rw [finish_of_last_frame appId atStatus hv h10 hshort]
        exact hnext _ (htake.done hshort) (Or.inl (Nat.lt_of_not_le h10)) hfresh'
    · exact finish_iff_of_le appId atStatus hstream hplace hfresh (Nat.le_of_not_lt hp)
  | stops l hv =>
    by_cases hp : l.offset < e
    · by_cases hfull : buffLen < l.data.length
      · have hnow := hplace.now_eq
        obtain ⟨hjunk, hframe⟩ :=
          hplace.verdict_of_full hv (le_trans (by decide) (Nat.le_of_lt hfull))
        rw [finish_of_full appId atStatus hv hfull, hnow,
          resyncs_flush hp hjunk (hplace.firstEnd hr hfull)
            fun len hlen => by have := hframe len hlen; omega]
        refine hnext ⟨[], r, l.log⟩ ?_ (Or.inl (Nat.zero_lt_succ 9)) hfresh
        apply Place.done
        · refine hplace.skip le_rfl ?_ hnow.symm
          rw [List.drop_length]
        · exact Nat.zero_le _
      · have hshort := Nat.le_of_not_lt hfull
        rw [finish_of_stops appId atStatus hv hshort]
        exact hnext l (hplace.done hshort) (Or.inr hv) hfresh
    · exact finish_iff_of_le appId atStatus hstream hplace hfresh (Nat.le_of_not_lt hp)

/-- Between the calls: the frames behind the damage are handled if and only if
    the parser gets to the end of the damage. -/
theorem recvAll_iff {l : Live} {r : ℕ} {chunks : List (List Byte)}
    (hplace : Place w ends [] r l chunks) (hidle : Idle l) (hfresh : Fresh e l) :
    AllHandled appId atStatus ((e, f) :: fs) (l.recvAll appId atStatus chunks) ↔
      Resyncs w ends e l.offset := by
  induction chunks generalizing l r with
  | nil =>
    -- nothing is handled any more, and the parser stays where it is
    have hrest := hplace.rest
    rw [List.flatten_nil, List.append_nil] at hrest
    refine iff_of_false (fun hall => hfresh _ (hall _ (List.mem_cons_self ..)) rfl) fun h => ?_
    have hlong : 10 ≤ (w.drop e).length := by
      by_contra hlt
      cases hstream.eq_nil_of_short (Nat.lt_of_not_le hlt)
    have hle := h.le
    have hstops : Stops (w.drop l.offset) := by
      rcases hidle with hlt | hstops
      · rw [List.length_drop] at hlong
        rw [hrest, List.length_drop] at hlt
        omega
      · rwa [hrest] at hstops
    rcases Nat.eq_or_lt_of_le hle with heq | hlt
    · rw [heq] at hstops
      have hne : w.drop e ≠ [] := List.length_pos_iff.1 (by omega)
      rw [← List.append_nil (w.drop e)] at hstream
      have hfront := hstream.front hne
      generalize w.drop e = data at hfront hstops
      cases hfront with
      | junk hv _ => rcases hstops with hs | hs <;> cases hs.symm.trans hv
      | frame hf _ => rcases hstops with hs | hs <;> cases hs.symm.trans (hf.verdict_eq _)
      | part _ _ hfut => exact hfut rfl
    · refine not_resyncs hlt hstops (fun r' hr' => ?_) h
      rcases hplace.near r' hr' with hn | hn | hn
      · exact hn
      · cases hn
      · cases hn
  | cons chunk chunks ih =>
    obtain ⟨hwithin, hr⟩ := hplace.recv
    exact finish_iff appId atStatus hstream hwithin hr hfresh fun l' => ih

end

end

/-! ## What the log says -/

/-- A frame with a complete header is handled by that header. -/
def Sound (l : Live) : Prop :=
  ∀ c ∈ l.log, 8 ≤ c.frame.length → c = handled appId atStatus (c.offset, c.frame)

theorem sound_take {l : Live} (h : Sound appId atStatus l) (len : ℕ) :
    Sound appId atStatus (l.take appId atStatus len) := by
  intro c hc h8
  rcases List.mem_append.1 hc with hc | hc
  · exact h c hc h8
  · obtain rfl := List.mem_singleton.1 hc
    have hheader : StPackCmd.ofBytes (l.data.take len) = StPackCmd.ofBytes l.data := by
      conv_rhs => rw [← List.take_append_drop len l.data, ofBytes_append h8]
    unfold handled
    rw [hheader]

theorem sound_scan {l : Live} (h : Sound appId atStatus l) :
    Sound appId atStatus (l.scan appId atStatus) := by
  induction l using scan_induct appId atStatus with
  | junk l hv ih =>
    rw [scan_of_junk hv]
    exact ih h
  | frame l len hv ih =>
    rw [scan_of_frame hv]
    split_ifs with h10
    · exact ih h10 (sound_take appId atStatus h len)
    · exact sound_take appId atStatus h len
  | stops l hv =>
    rw [scan_of_stops hv]
    exact h

theorem sound_recvAll {l : Live} (h : Sound appId atStatus l) (chunks : List (List Byte)) :
    Sound appId atStatus (l.recvAll appId atStatus chunks) := by
  induction chunks generalizing l with
  | nil => exact h
  | cons chunk chunks ih =>
    apply ih
    have hscan := sound_scan appId atStatus (l := { l with data := l.data ++ chunk }) h
    unfold Live.recv Live.flush
    split_ifs
    · exact hscan
    · exact hscan

/-! ## A damaged frame at the start -/

theorem stream_offsets {o : ℕ} {fs : List (List Byte)} (h : ∀ f ∈ fs, WellFormed f) :
    Stream o (offsets o fs) fs.flatten := by
  induction fs generalizing o with
  | nil => exact .nil o
  | cons f fs ih =>
    rw [List.flatten_cons]
    exact .frame (h f (List.mem_cons_self ..)) (ih fun g hg => h g (List.mem_cons_of_mem _ hg))

theorem Damaged.pos {d w : List Byte} (h : Damaged d w) : 0 < d.length := by
  apply List.length_pos_iff.2
  rintro rfl
  exact absurd h.head (by decide)

/-- At a damaged frame the parser is stuck. -/
theorem Damaged.resyncs_iff {d w : List Byte} {ends : List ℕ} (h : Damaged d w)
    (hw : w.getD 0 0 = d.getD 0 0) :
    Resyncs w ends d.length 0 ↔ ∃ r, FirstEnd ends 0 r ∧ Resyncs w ends d.length r := by
  have hpos := h.pos
  have hjunk : verdict (w.drop 0) ≠ .junk := by
    intro hv
    have hspec := verdict_spec w
    rw [show verdict w = .junk from hv] at hspec
    cases hspec with
    | junk _ hj =>
      rw [hw] at hj
      exact hj h.head
  have hlong : ∀ len, verdict (w.drop 0) = .frame len → d.length < len := by
    intro len hv
    have hspec := verdict_spec w
    rw [show verdict w = .frame len from hv] at hspec
    cases hspec with
    | frame _ _ _ hcrc =>
      rcases h.damage with hbad | hlt
      · exact absurd hcrc hbad
      · exact hlt
  constructor
  · intro hr
    generalize hp : 0 = p at hr
    cases hr with
    | here => omega
    | junk _ hv _ => exact absurd (hp ▸ hv) hjunk
    | frame _ hv _ hrest =>
      subst hp
      have h1 := hlong _ hv
      have h2 := hrest.le
      omega
    | flush _ _ hfirst _ hrest =>
      subst hp
      exact ⟨_, hfirst, hrest⟩
  · rintro ⟨r, hfirst, hr⟩
    refine .flush hpos hjunk hfirst (fun len hv => ?_) hr
    have h1 := hlong len hv
    have h2 := hr.le
    omega

theorem mem_of_mem_offsets {o : ℕ} {fs : List (List Byte)} {x : ℕ × List Byte}
    (h : x ∈ offsets o fs) : x.2 ∈ fs := by
  induction fs generalizing o with
  | nil => cases h
  | cons f fs ih =>
    rcases List.mem_cons.1 h with rfl | h
    · exact List.mem_cons_self ..
    · exact List.mem_cons_of_mem _ (ih h)

/-- Frames are dispatched if they are handled and not discarded. -/
theorem dispatched_iff {l : Live} (hsound : Sound appId atStatus l) {xs : List (ℕ × List Byte)}
    (hxs : ∀ x ∈ xs, 8 ≤ x.2.length) :
    (∀ x ∈ xs, ∃ c ∈ l.log, c.offset = x.1 ∧ c.frame = x.2 ∧ c.target ≠ .discarded) ↔
      (∀ x ∈ xs, target appId (StPackCmd.ofBytes x.2) (atStatus x.1) ≠ .discarded) ∧
        AllHandled appId atStatus xs l := by
  constructor
  · intro h
    have hboth : ∀ x ∈ xs, (handled appId atStatus x).target ≠ .discarded ∧
        handled appId atStatus x ∈ l.log := by
      intro x hx
      obtain ⟨c, hc, hoff, hframe, htarget⟩ := h x hx
      have hhandled := hsound c hc (by rw [hframe]; exact hxs x hx)
      rw [hoff, hframe] at hhandled
      rw [hhandled] at hc htarget
      exact ⟨htarget, hc⟩
    exact ⟨fun x hx => (hboth x hx).1, fun x hx => (hboth x hx).2⟩
  · rintro ⟨htarget, hall⟩ x hx
    exact ⟨_, hall x hx, rfl, rfl, htarget x hx⟩

theorem place_start (chunks : List (List Byte)) :
    Place chunks.flatten (endsFrom 0 chunks) [] 0 ⟨[], 0, []⟩ chunks :=
  ⟨rfl, rfl, fun _ h => Or.inr (Or.inr h), fun _ h => h⟩

/-- All frames behind a damaged one are dispatched if and only if none of them is
    discarded because of an update, and there is none, or the first chunk that
    ends more than `BUFF_LEN` bytes behind the start ends at a place from which
    the parser gets to the end of the damage. -/
theorem resync_iff {d : List Byte} {fs chunks : List (List Byte)}
    (hdamaged : Damaged d (d ++ fs.flatten)) (hgood : ∀ f ∈ fs, WellFormed f)
    (hsplit : chunks.flatten = d ++ fs.flatten) (hfit : Fits appId atStatus .empty chunks) :
    (∀ x ∈ offsets d.length fs, ∃ c ∈ (State.empty.recvAll appId atStatus chunks).log,
        c.offset = x.1 ∧ c.frame = x.2 ∧ c.target ≠ .discarded) ↔
      (∀ x ∈ offsets d.length fs,
        target appId (StPackCmd.ofBytes x.2) (atStatus x.1) ≠ .discarded) ∧
      (fs = [] ∨ ∃ r, FirstEnd (endsFrom 0 chunks) 0 r ∧
        Resyncs (d ++ fs.flatten) (endsFrom 0 chunks) d.length r) := by
  have hlive : State.empty.recvAll appId atStatus chunks =
      ((Live.mk [] 0 []).recvAll appId atStatus chunks).toState :=
    recvAll_toState appId atStatus (l := ⟨[], 0, []⟩) (Nat.zero_le _) hfit
  have hsound : Sound appId atStatus ((Live.mk [] 0 []).recvAll appId atStatus chunks) :=
    sound_recvAll appId atStatus (fun _ hc => by cases hc) chunks
  have hlen : ∀ x ∈ offsets d.length fs, 8 ≤ x.2.length := fun x hx =>
    le_trans (by decide) (hgood _ (mem_of_mem_offsets hx)).ten_le
  rw [hlive]
  refine (dispatched_iff appId atStatus hsound hlen).trans (and_congr_right fun _ => ?_)
  cases fs with
  | nil => exact iff_of_true (fun _ hx => by cases hx) (Or.inl rfl)
  | cons f fs =>
    have hstream : Stream d.length ((d.length, f) :: offsets (d.length + f.length) fs)
        ((d ++ (f :: fs).flatten).drop d.length) := by
      rw [List.drop_left]
      exact stream_offsets hgood
    have hplace := place_start chunks
    rw [hsplit] at hplace
    have hhead : (d ++ (f :: fs).flatten).getD 0 0 = d.getD 0 0 :=
      getD_append_of_lt hdamaged.pos
    have hiff := recvAll_iff appId atStatus hstream hplace (Or.inl (by decide))
      (fun c hc => by cases hc)
    rw [or_iff_right (List.cons_ne_nil f fs), ← hdamaged.resyncs_iff hhead]
    exact hiff

end

/-! ## Two damaged frames -/

/-- A frame without contents, with a wrong checksum. -/
def damagedFrame : List Byte := [0x23, 0, 0, 0, 0, 0, 0, 0, 0, 0]

/-- The frame behind a damaged one of ten bytes is lost, even if both arrive at once. -/
theorem frame_lost_behind_damage :
    Damaged damagedFrame (damagedFrame ++ [exampleFrame].flatten) ∧ WellFormed exampleFrame ∧
      Fits 1 (fun _ => .atFree) .empty [damagedFrame ++ exampleFrame] ∧
      (State.empty.recvAll 1 (fun _ => .atFree) [damagedFrame ++ exampleFrame]).dispatched = [] :=
  ⟨⟨by decide, Or.inl (by decide +kernel)⟩, wellFormed_exampleFrame,
    ⟨by decide, by decide, trivial⟩, by decide +kernel⟩

/-- Behind a damage of more than `BUFF_LEN` bytes that ends with a chunk, the
    frame is dispatched. -/
theorem resync_long_damage :
    ∃ c ∈ (State.empty.recvAll 1 (fun _ => .atFree)
        [damagedFrame ++ List.replicate 1020 0, exampleFrame]).log,
      c.offset = 1030 ∧ c.frame = exampleFrame ∧ c.target ≠ .discarded := by
  have hfit : Fits 1 (fun _ => .atFree) .empty
      [damagedFrame ++ List.replicate 1020 0, exampleFrame] :=
    ⟨by decide, by decide +kernel, by decide, by decide +kernel, trivial⟩
  have hdamaged : Damaged (damagedFrame ++ List.replicate 1020 0)
      (damagedFrame ++ List.replicate 1020 0 ++ [exampleFrame].flatten) :=
    ⟨by decide, Or.inl (by decide +kernel)⟩
  have hgood : ∀ f ∈ [exampleFrame], WellFormed f := fun f hf => by
    rw [List.mem_singleton.1 hf]
    exact wellFormed_exampleFrame
  have hends : endsFrom 0 [damagedFrame ++ List.replicate 1020 0, exampleFrame] = [1030, 1040] := by
    decide +kernel
  have hlen : (damagedFrame ++ List.replicate 1020 0).length = 1030 := by decide +kernel
  have hsplit : [damagedFrame ++ List.replicate 1020 0, exampleFrame].flatten =
      damagedFrame ++ List.replicate 1020 0 ++ [exampleFrame].flatten := List.flatten_cons
  have hiff := resync_iff 1 (fun _ => .atFree) hdamaged hgood hsplit hfit
  rw [hends, hlen] at hiff
  refine hiff.2 ⟨?_, Or.inr ⟨1030, ⟨by decide, by decide, by decide⟩, .here⟩⟩
    (1030, exampleFrame) ?_
  · intro x hx
    rw [List.mem_singleton.1 hx]
    decide +kernel
  · exact List.mem_cons_self ..

end Abox.Server
