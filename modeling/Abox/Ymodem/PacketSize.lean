import Abox.Lib.Runs
import Abox.Ymodem.Receive

/-!
# The size of a packet

The passes of the loop of `_rym_do_trans` (`ymodem.c` lines 201–258), also behind a
lead byte that starts no packet: up to three of them are counted, and the pass goes on
with a `data_sz` that is not set. What it holds then is the label of the pass.

* `calls_sized_iff`: in a run, `_rym_trans_data` is called only for packets of the size
  of their lead byte iff every lead byte the run reads is SOH, STX or EOT.
* `call_of_any_size`: after a wrong byte `on_data` gets any size.
* `exists_run_of_transLoop`: a loop that the model of the transfer returns from is such
  a run.
-/

namespace Abox.Ymodem

open Runs

variable {σ : Type}

/-! ## The passes of the loop -/

/-- `_rym_trans_data` for any `data_sz`, with the sums of 32 bits. -/
def RymCtx.transDataAny (cb : Callbacks σ) (ctx : RymCtx σ) (data_sz : BitVec 32) (code : Byte) :
    Option (RymErr × Byte × RymCtx σ) :=
  let (i, ctx) := ctx.readData (data_sz + 4).toNat
  if i ≠ (data_sz + 4).toNat then some (.dsz, code, ctx)
  else if (ctx.buf.getD 1 0).toNat + (ctx.buf.getD 2 0).toNat ≠ 0xFF then some (.seq, code, ctx)
  else if ctx.stage = .established ∧ ctx.buf.getD 1 0 = 0 then some (.eok, rymCodeNone, ctx)
  else
    let ctx := { ctx with stage := .transmitting }
    if CcittCrc16 (readN ctx.payload (data_sz + 2).toNat) ≠ 0 then some (.crc, code, ctx)
    else
      (cb.onData ctx.user ctx.payload data_sz.toNat).map fun (code, user) =>
        (.eok, code, { ctx with user := user })

/-- Where `_rym_do_trans` is: at the head of its loop, returned, or in a callback that
    does not return. -/
inductive Control
  | loop
  | returned (err : RymErr)
  | stuck
  deriving DecidableEq

/-- The loop, with a record of the calls of `_rym_trans_data`: the lead byte and
    `data_sz`. -/
structure Trans (σ : Type) where
  ctx : RymCtx σ
  err_cnt : ℕ
  control : Control
  calls : List (Byte × BitVec 32)

/-- The loop when it is entered. -/
def Trans.start (ctx : RymCtx σ) : Trans σ := ⟨ctx, 0, .loop, []⟩

/-- What follows a call of `_rym_trans_data`. -/
def Trans.reply (t : Trans σ) : Option (RymErr × Byte × RymCtx σ) → Trans σ
  | none => { t with control := .stuck }
  | some (err, code, ctx) =>
    if err ≠ .eok then { t with ctx := ctx, control := .returned err }
    else if code = rymCodeCan then
      { t with
        ctx := (List.range rymEndSessionSendCanNum).foldl (fun ctx _ => ctx.putchar rymCodeCan) ctx
        control := .returned .can }
    else if code = rymCodeAck then { t with ctx := ctx.putchar rymCodeAck }
    else { t with ctx := ctx }

/-- A pass from the call of `_rym_trans_data` on. -/
def Trans.body (cb : Callbacks σ) (t : Trans σ) (data_sz : BitVec 32) (code : Byte) : Trans σ :=
  { t with calls := t.calls ++ [(code, data_sz)] }.reply (t.ctx.transDataAny cb data_sz code)

/-- A pass of the loop. `data_sz` holds `unset` until it is set. -/
def Trans.pass (cb : Callbacks σ) (t : Trans σ) (unset : BitVec 32) : Trans σ :=
  let (code, ctx) := t.ctx.readCode
  let t := { t with ctx := ctx }
  if code = rymCodeSoh then t.body cb 128 code
  else if code = rymCodeStx then t.body cb 1024 code
  else if code = rymCodeEot then { t with control := .returned .eok }
  else
    let t := { t with err_cnt := t.err_cnt + 1 }
    if 3 < t.err_cnt then { t with control := .returned .code } else t.body cb unset code

def Trans.Step (cb : Callbacks σ) (t : Trans σ) (unset : BitVec 32) (t' : Trans σ) : Prop :=
  t.control = .loop ∧ t' = t.pass cb unset

/-! ## Specification -/

/-- A packet has the size of its lead byte. -/
def SizedCall (call : Byte × BitVec 32) : Prop :=
  (call.1 = rymCodeSoh ∧ call.2 = 128) ∨ (call.1 = rymCodeStx ∧ call.2 = 1024)

instance (call : Byte × BitVec 32) : Decidable (SizedCall call) :=
  inferInstanceAs (Decidable (_ ∨ _))

/-- All calls of `_rym_trans_data` so far. -/
def Trans.SizedCalls (t : Trans σ) : Prop := ∀ call ∈ t.calls, SizedCall call

/-- A byte that starts a packet or ends the file. -/
def KnownLead (code : Byte) : Prop :=
  code = rymCodeSoh ∨ code = rymCodeStx ∨ code = rymCodeEot

instance (code : Byte) : Decidable (KnownLead code) := inferInstanceAs (Decidable (_ ∨ _))

/-- The byte that the next pass reads. -/
def LeadRead (t : Trans σ) (_ : BitVec 32) : Prop := KnownLead t.ctx.readCode.1

/-! ## One pass -/

@[simp] theorem Trans.calls_reply (t : Trans σ) (r : Option (RymErr × Byte × RymCtx σ)) :
    (t.reply r).calls = t.calls := by
  unfold Trans.reply
  split
  · rfl
  · split_ifs <;> rfl

@[simp] theorem Trans.err_cnt_reply (t : Trans σ) (r : Option (RymErr × Byte × RymCtx σ)) :
    (t.reply r).err_cnt = t.err_cnt := by
  unfold Trans.reply
  split
  · rfl
  · split_ifs <;> rfl

theorem Trans.sizedCalls_body (cb : Callbacks σ) (t : Trans σ) (data_sz : BitVec 32)
    (code : Byte) :
    (t.body cb data_sz code).SizedCalls ↔ t.SizedCalls ∧ SizedCall (code, data_sz) := by
  unfold Trans.body Trans.SizedCalls
  rw [Trans.calls_reply]
  exact List.forall_mem_append.trans (and_congr_right' List.forall_mem_singleton)

theorem sizedCall_of_unknown {code : Byte} (h : ¬ KnownLead code) (data_sz : BitVec 32) :
    ¬ SizedCall (code, data_sz) := by
  rintro (⟨hcode, _⟩ | ⟨hcode, _⟩)
  · exact h (Or.inl hcode)
  · exact h (Or.inr (Or.inl hcode))

theorem not_knownLead {code : Byte} (hsoh : code ≠ rymCodeSoh) (hstx : code ≠ rymCodeStx)
    (heot : code ≠ rymCodeEot) : ¬ KnownLead code := by
  rintro (h | h | h)
  · exact hsoh h
  · exact hstx h
  · exact heot h

/-- What a pass does to the record of the calls and to the count of errors. -/
inductive PassEffect (t t' : Trans σ) : Prop
  | known (h : KnownLead t.ctx.readCode.1) (hcnt : t'.err_cnt = t.err_cnt)
      (hcalls : t'.SizedCalls ↔ t.SizedCalls)
  | unknown (h : ¬ KnownLead t.ctx.readCode.1) (hcnt : t.err_cnt < 3) (hcalls : ¬ t'.SizedCalls)
  | last (h : ¬ KnownLead t.ctx.readCode.1) (hcnt : 3 ≤ t.err_cnt)
      (hcalls : t'.SizedCalls ↔ t.SizedCalls)

theorem pass_effect (cb : Callbacks σ) (t : Trans σ) (unset : BitVec 32) :
    PassEffect t (t.pass cb unset) := by
  unfold Trans.pass
  dsimp only
  split_ifs with hsoh hstx heot hmany
  · refine .known (Or.inl hsoh) (Trans.err_cnt_reply ..) ?_
    rw [Trans.sizedCalls_body]
    exact and_iff_left (Or.inl ⟨hsoh, rfl⟩)
  · refine .known (Or.inr (Or.inl hstx)) (Trans.err_cnt_reply ..) ?_
    rw [Trans.sizedCalls_body]
    exact and_iff_left (Or.inr ⟨hstx, rfl⟩)
  · exact .known (Or.inr (Or.inr heot)) rfl Iff.rfl
  · exact .last (not_knownLead hsoh hstx heot) (by omega) Iff.rfl
  · have hno := not_knownLead hsoh hstx heot
    refine .unknown hno (by omega) ?_
    rw [Trans.sizedCalls_body]
    exact fun h => sizedCall_of_unknown hno unset h.2

/-! ## Runs -/

/-- As long as all calls have the right size, no error has been counted. -/
def NoneCounted (t : Trans σ) : Prop := t.SizedCalls → t.err_cnt = 0

theorem NoneCounted.step {cb : Callbacks σ} {t t' : Trans σ} {unset : BitVec 32}
    (h : NoneCounted t) (hs : t.Step cb unset t') : NoneCounted t' := by
  obtain ⟨_, rfl⟩ := hs
  intro hsized
  cases pass_effect cb t unset with
  | known _ hcnt hcalls => rw [hcnt, h (hcalls.1 hsized)]
  | unknown _ _ hcalls => exact absurd hsized hcalls
  | last _ hcnt hcalls =>
    have := h (hcalls.1 hsized)
    omega

theorem sizedCalls_step_iff {cb : Callbacks σ} {t t' : Trans σ} {unset : BitVec 32}
    (hnone : NoneCounted t) (h : t.SizedCalls) (hs : t.Step cb unset t') :
    t'.SizedCalls ↔ LeadRead t unset := by
  obtain ⟨_, rfl⟩ := hs
  cases pass_effect cb t unset with
  | known hlead _ hcalls => exact iff_of_true (hcalls.2 h) hlead
  | unknown hlead _ hcalls => exact iff_of_false hcalls hlead
  | last _ hcnt _ =>
    have := hnone h
    omega

/-- Every call is for a packet of the size of its lead byte iff every lead byte is
    known, whatever `data_sz` holds where it is not set. -/
theorem calls_sized_iff (cb : Callbacks σ) (ctx : RymCtx σ) {tr : List (BitVec 32 × Trans σ)}
    (hrun : Path (Trans.Step cb) (Trans.start ctx) tr) :
    Always Trans.SizedCalls (Trans.start ctx) tr ↔ AllSteps LeadRead (Trans.start ctx) tr := by
  have hnone : NoneCounted (Trans.start ctx) := fun _ => rfl
  have hsized : (Trans.start ctx).SizedCalls := fun _ h => absurd h List.not_mem_nil
  exact @Path.always_iff _ _ (Trans.Step cb) NoneCounted Trans.SizedCalls LeadRead
    NoneCounted.step sizedCalls_step_iff _ _ hrun hnone hsized

/-- Callbacks that keep the sizes they are called with. -/
def sizesOf : Callbacks (List ℕ) where
  onBegin := fun user _ _ => some (rymCodeAck, user)
  onData := fun user _ len => some (rymCodeAck, user ++ [len])
  onEnd := fun user _ _ => some (rymCodeAck, user)

/-- The first packet, sent again, and the end of the file. -/
def headerAgain : Trans (List ℕ) := .start
  ⟨[some 0x01, some 0x00, some 0xFF] ++ List.replicate 130 (some 0x00) ++ [some 0x04], [],
    .established, List.replicate rymStxPkgSz 0, []⟩

theorem calls_sized_iff_again :
    Path (Trans.Step sizesOf) headerAgain [(7, headerAgain.pass sizesOf 7),
        (9, (headerAgain.pass sizesOf 7).pass sizesOf 9)] ∧
      Always Trans.SizedCalls headerAgain [(7, headerAgain.pass sizesOf 7),
        (9, (headerAgain.pass sizesOf 7).pass sizesOf 9)] := by
  have hloop : (headerAgain.pass sizesOf 7).control = .loop := by decide +kernel
  have hsoh : KnownLead headerAgain.ctx.readCode.1 := by decide +kernel
  have heot : KnownLead (headerAgain.pass sizesOf 7).ctx.readCode.1 := by decide +kernel
  have hrun : Path (Trans.Step sizesOf) headerAgain [(7, headerAgain.pass sizesOf 7),
      (9, (headerAgain.pass sizesOf 7).pass sizesOf 9)] :=
    .cons ⟨rfl, rfl⟩ (.cons ⟨hloop, rfl⟩ (.nil _))
  exact ⟨hrun, (calls_sized_iff sizesOf headerAgain.ctx hrun).2 ⟨hsoh, heot, trivial⟩⟩

/-- A byte that starts no packet, and five more. -/
def noise : Trans (List ℕ) := .start
  ⟨[some 0x55, some 0x01, some 0xFE, some 0x00, some 0x00, some 0x00], [], .established,
    List.replicate rymStxPkgSz 0, []⟩

/-- After the byte `0x55` a packet of one byte is read and handed to `on_data`, if
    `data_sz` happens to be 1. -/
theorem call_of_unset_size :
    Path (Trans.Step sizesOf) noise [(1, noise.pass sizesOf 1)] ∧
      (noise.pass sizesOf 1).ctx.user = [1] ∧
      ¬ Always Trans.SizedCalls noise [(1, noise.pass sizesOf 1)] := by
  have hcall : (0x55, 1) ∈ (noise.pass sizesOf 1).calls := by decide +kernel
  have huser : (noise.pass sizesOf 1).ctx.user = [1] := by decide +kernel
  have hrun : Path (Trans.Step sizesOf) noise [(1, noise.pass sizesOf 1)] :=
    .cons ⟨rfl, rfl⟩ (.nil _)
  refine ⟨hrun, huser, fun h => ?_⟩
  have hsized : (noise.pass sizesOf 1).SizedCalls := h.2
  exact absurd (hsized (0x55, 1) hcall) (by decide)

/-! ## The loop of the transfer -/

theorem RymCtx.transDataAny_eq (cb : Callbacks σ) (ctx : RymCtx σ) {dataSz : ℕ}
    (h : dataSz + 4 < 2 ^ 32) (code : Byte) :
    ctx.transDataAny cb (BitVec.ofNat 32 dataSz) code = ctx.transData cb dataSz code := by
  have h4 : (BitVec.ofNat 32 dataSz + 4).toNat = dataSz + 4 := by
    rw [BitVec.toNat_add, BitVec.toNat_ofNat]
    simp
    omega
  have h2 : (BitVec.ofNat 32 dataSz + 2).toNat = dataSz + 2 := by
    rw [BitVec.toNat_add, BitVec.toNat_ofNat]
    simp
    omega
  have h0 : (BitVec.ofNat 32 dataSz).toNat = dataSz := by
    rw [BitVec.toNat_ofNat]
    omega
  unfold transDataAny transData
  rw [h4, h2, h0]

/-- The pass of a packet. -/
theorem Trans.pass_packet (cb : Callbacks σ) {t : Trans σ} {dataSz : ℕ}
    (h : packetSize t.ctx.readCode.1 = some dataSz) (unset : BitVec 32) :
    t.pass cb unset =
      { t with
        ctx := t.ctx.readCode.2
        calls := t.calls ++ [(t.ctx.readCode.1, BitVec.ofNat 32 dataSz)] }.reply
        (t.ctx.readCode.2.transData cb dataSz t.ctx.readCode.1) := by
  unfold packetSize at h
  unfold pass body
  dsimp only
  split_ifs at h with hsoh hstx
  · obtain rfl := Option.some.inj h
    rw [if_pos hsoh, ← RymCtx.transDataAny_eq cb _ (by decide)]
    rfl
  · obtain rfl := Option.some.inj h
    rw [if_neg hsoh, if_pos hstx, ← RymCtx.transDataAny_eq cb _ (by decide)]
    rfl

theorem knownLead_of_packetSize {code : Byte} {dataSz : ℕ} (h : packetSize code = some dataSz) :
    KnownLead code := by
  unfold packetSize at h
  split_ifs at h with hsoh hstx
  · exact Or.inl hsoh
  · exact Or.inr (Or.inl hstx)

/-- The run comes back from `_rym_do_trans` with `err`, all its lead bytes known. -/
def Returns (cb : Callbacks σ) (t : Trans σ) (err : RymErr) (ctx : RymCtx σ) : Prop :=
  ∃ tr, Path (Trans.Step cb) t tr ∧ AllSteps LeadRead t tr ∧
    (last t tr).control = .returned err ∧ (last t tr).ctx = ctx

theorem Returns.of_returned {cb : Callbacks σ} {t : Trans σ} {err : RymErr} {ctx : RymCtx σ}
    (h : t.control = .returned err) (hctx : t.ctx = ctx) : Returns cb t err ctx :=
  ⟨[], .nil t, trivial, h, hctx⟩

theorem Returns.of_pass {cb : Callbacks σ} {t : Trans σ} {err : RymErr} {ctx : RymCtx σ}
    (ht : t.control = .loop) (hlead : KnownLead t.ctx.readCode.1)
    (h : Returns cb (t.pass cb 0) err ctx) : Returns cb t err ctx := by
  obtain ⟨tr, hrun, hsteps, hend⟩ := h
  exact ⟨(0, t.pass cb 0) :: tr, .cons ⟨ht, rfl⟩ hrun, ⟨hlead, hsteps⟩, hend⟩

/-- A loop that returns in the model of the transfer has a run that returns. -/
theorem exists_run_of_transLoop (cb : Callbacks σ) {fuel : ℕ} {t : Trans σ}
    (ht : t.control = .loop) {err : RymErr} {ctx : RymCtx σ}
    (h : t.ctx.transLoop cb fuel = some (err, ctx)) : Returns cb t err ctx := by
  induction fuel generalizing t with
  | zero => cases h
  | succ fuel ih =>
    rw [RymCtx.transLoop] at h
    dsimp only at h
    by_cases heot : t.ctx.readCode.1 = rymCodeEot
    · rw [if_pos heot] at h
      obtain ⟨rfl, rfl⟩ := Prod.mk.inj (Option.some.inj h)
      have hpass : t.pass cb 0 = { t with ctx := t.ctx.readCode.2, control := .returned .eok } := by
        have hsoh : rymCodeEot ≠ rymCodeSoh := by decide
        have hstx : rymCodeEot ≠ rymCodeStx := by decide
        unfold Trans.pass
        dsimp only
        rw [heot, if_neg hsoh, if_neg hstx, if_pos rfl]
      refine .of_pass ht (Or.inr (Or.inr heot)) ?_
      rw [hpass]
      exact .of_returned rfl rfl
    rw [if_neg heot] at h
    cases hsize : packetSize t.ctx.readCode.1 with
    | none => rw [hsize] at h; cases h
    | some dataSz =>
      rw [hsize] at h
      refine .of_pass ht (knownLead_of_packetSize hsize) ?_
      rw [Trans.pass_packet cb hsize]
      revert h
      dsimp only
      cases t.ctx.readCode.2.transData cb dataSz t.ctx.readCode.1 with
      | none => exact nofun
      | some r =>
        obtain ⟨e, code, ctx'⟩ := r
        dsimp only [Trans.reply]
        split_ifs with he hcan hack
        · intro h
          obtain ⟨rfl, rfl⟩ := Prod.mk.inj (Option.some.inj h)
          exact .of_returned rfl rfl
        · intro h
          obtain ⟨rfl, rfl⟩ := Prod.mk.inj (Option.some.inj h)
          exact .of_returned rfl rfl
        · exact fun h => ih ht h
        · exact fun h => ih ht h

end Abox.Ymodem
