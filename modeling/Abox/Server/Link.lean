import Abox.Kernel.Ipc
import Abox.Lib.Runs
import Abox.Server.Chunking

/-!
# The state of the link

`Cdma_Info.link` is set by the threads that set up and tear down connections
(`Abox/src/client.c` lines 124–147 and 522–545), and by `Abox_thread_entry`
(`Abox_exchange.c` lines 158–190 and 293–337) when it handles a `TCMD_19` that
`processDataFromServer` has put into `A_STOA_MQ`. A teardown leaves the messages
in the queue.

* `link_iff`: in a run `CONNECT_SERVER` always stands for a connection on which
  the server has registered the device, exactly if a registration is only ever
  handled while there is such a connection.
* `linkOk_of_drained`: it would be so if the queue were emptied.
* `stale_registration`: a registration is handled after its connection.
-/

namespace Abox.Server

open Runs

/-! ## Connections -/

/-- `SERVER_CONNECT_STATUS` (`mydef.h` lines 74–90), without the values that are
    never assigned to `Cdma_Info.link`. -/
inductive ServerConnectStatus
  | disconnenct
  | connectAt
  | connectServer
  deriving DecidableEq

/-- `PANEL_LINK_STATUS`. -/
inductive PanelLinkStatus
  | panelDisconnect
  | panelTryconnect
  | panelConEth
  deriving DecidableEq

/-- `e_currentConnectStyle`. -/
inductive CurrentConnectStyle
  | nullDisconnenct
  | clientWifiConnect
  | clientEthConnect
  deriving DecidableEq

/-- `Cdma_Info.link`, `Cdma_Info.currentConnectStyle` and
    `dicInfo.secondDicInfo.panelLink`. -/
structure LinkInfo where
  link : ServerConnectStatus
  currentConnectStyle : CurrentConnectStyle
  panelLink : PanelLinkStatus
  deriving DecidableEq

/-- What `tcpcheck` finds and sets. -/
def LinkInfo.init : LinkInfo := ⟨.disconnenct, .nullDisconnenct, .panelDisconnect⟩

def entryEthStatus (s : LinkInfo) : LinkInfo :=
  { s with link := .connectAt, panelLink := .panelConEth }

def exitEthStatus (s : LinkInfo) : LinkInfo :=
  { s with
    link := .disconnenct
    currentConnectStyle := .nullDisconnenct
    panelLink := .panelDisconnect }

/-- `quitTcpConnect`; that it closes the socket of the connection ends
    `ethChat` or `wifiChat` later on. -/
def quitTcpConnect (s : LinkInfo) : LinkInfo :=
  { s with
    link := .disconnenct
    currentConnectStyle := .nullDisconnenct
    panelLink := .panelDisconnect }

/-- A connection is up. -/
def LinkInfo.Up (s : LinkInfo) : Prop :=
  s.currentConnectStyle ≠ .nullDisconnenct ∧ s.panelLink = .panelConEth

/-! ## Messages -/

/-- `TCMD_19_Info.status` of the message in `rev`. -/
def statusOf (rev : List Byte) : BitVec 16 := u16At rev sizeofStPackCmd

/-- `Abox_DEV_USER_GET_SSTATUS`. -/
def Abox_DEV_USER_GET_SSTATUS (s : LinkInfo) (rev : List Byte) : LinkInfo :=
  if statusOf rev = 0 then { s with link := .connectAt }
  else if statusOf rev = 1 then { s with link := .connectServer }
  else s

/-- `TCMD_12` and `TCMD_19`. -/
def tcmd12 : Byte := 12
def tcmd19 : Byte := 19

/-- What is in `rev` is taken for a `TCMD_19` with the status 1. -/
structure SaysRegistered (rev : List Byte) : Prop where
  head : IsHead (StPackCmd.ofBytes rev).soh
  cmd : (StPackCmd.ofBytes rev).cmd = tcmd19
  status : statusOf rev = 1

instance (rev : List Byte) : Decidable (SaysRegistered rev) :=
  decidable_of_iff (IsHead (StPackCmd.ofBytes rev).soh ∧ (StPackCmd.ofBytes rev).cmd = tcmd19 ∧
    statusOf rev = 1) ⟨fun ⟨h1, h2, h3⟩ => ⟨h1, h2, h3⟩, fun ⟨h1, h2, h3⟩ => ⟨h1, h2, h3⟩⟩

/-- A `TCMD_19` with the status 1, in front of its checksum. -/
def IsRegistration (frame : List Byte) : Prop :=
  SaysRegistered frame ∧ sizeofStPackCmd + 2 + 2 ≤ frame.length

instance (frame : List Byte) : Decidable (IsRegistration frame) :=
  inferInstanceAs (Decidable (_ ∧ _))

/-- The state of the link, `A_STOA_MQ`, whether `Abox_thread_entry` is in
    `process_DEV_USER_RUPDATA`, and whether a registration was received since
    the last `entryEthStatus`. -/
structure Link extends LinkInfo where
  stoaMq : RtMq
  updating : Bool
  registered : Bool

/-- `initializeClient` (`client.c` lines 630–647): three messages of 1024 bytes;
    what is in the slots is not initialized. -/
def Link.init (slots : Fin 3 → List Byte) : Link :=
  { LinkInfo.init with
    stoaMq := ⟨1024, [], List.ofFn slots⟩
    updating := false
    registered := false }

/-- A frame that `processDataFromServer` has found: one for the device itself
    goes to `mq_send`, which drops it if it does not fit. -/
def Link.arrive (s : Link) (d : Dispatch) : Link :=
  if d.target = .mqSend then
    { s with
      stoaMq := (rt_mq_send s.stoaMq d.frame).getD s.stoaMq
      registered := s.registered || decide (IsRegistration d.frame) }
  else s

/-- `cdma_rev_pack` (`exchange.c` lines 654–715), as far as it concerns the link:
    a `TCMD_12` starts `process_DEV_USER_RUPDATA`. -/
def Link.cdma_rev_pack (s : Link) (precv : List Byte) : Link :=
  let packcmd := StPackCmd.ofBytes precv
  if IsHead packcmd.soh then
    if packcmd.cmd = tcmd12 then { s with updating := true }
    else if packcmd.cmd = tcmd19 then
      { s with toLinkInfo := Abox_DEV_USER_GET_SSTATUS s.toLinkInfo precv }
    else s
  else s

/-- A pass of `Abox_thread_entry`, or of the receiving loop of
    `process_DEV_USER_RUPDATA`, which handles none but `TCMD_11`. -/
def Link.abox_thread_entry (s : Link) : Link :=
  match rt_mq_recv s.stoaMq buffLen with
  | none => s
  | some (exBuf, mq) =>
    if s.updating then { s with stoaMq := mq }
    else Link.cdma_rev_pack { s with stoaMq := mq } exBuf

/-! ## Runs -/

inductive LinkEvent
  | tryconnect
  | connected (style : CurrentConnectStyle)
  | entryEthStatus
  | exitEthStatus
  | quitTcpConnect
  | arrive (d : Dispatch)
  | aboxThreadEntry
  | updateEnds

/-- What each event does, `none` where it is not possible. The loops of both
    clients try to connect only while `panelLink` is not `Panel_con_eth`. -/
def Link.step (s : Link) : LinkEvent → Option Link
  | .tryconnect =>
    if s.panelLink ≠ .panelConEth then some { s with panelLink := .panelTryconnect } else none
  | .connected style =>
    if style ≠ .nullDisconnenct then some { s with currentConnectStyle := style } else none
  | .entryEthStatus =>
    some { s with toLinkInfo := Server.entryEthStatus s.toLinkInfo, registered := false }
  | .exitEthStatus => some { s with toLinkInfo := Server.exitEthStatus s.toLinkInfo }
  | .quitTcpConnect => some { s with toLinkInfo := Server.quitTcpConnect s.toLinkInfo }
  | .arrive d => some (s.arrive d)
  | .aboxThreadEntry => some s.abox_thread_entry
  | .updateEnds => if s.updating then some { s with updating := false } else none

/-- The device is taken to be registered only while a connection is up on which
    the server has said so. -/
def LinkOk (s : Link) : Prop :=
  s.link = .connectServer → s.Up ∧ s.registered = true

/-- What `Abox_thread_entry` takes from the queue for a registration is handled
    while a connection is up on which one was received. -/
def RegistrationOk (s : Link) : LinkEvent → Prop
  | .aboxThreadEntry => s.updating = false →
      ∀ exBuf mq, rt_mq_recv s.stoaMq buffLen = some (exBuf, mq) → SaysRegistered exBuf →
        s.Up ∧ s.registered = true
  | _ => True

/-! ## Steps -/

theorem toLinkInfo_arrive (s : Link) (d : Dispatch) : (s.arrive d).toLinkInfo = s.toLinkInfo := by
  unfold Link.arrive
  split_ifs <;> rfl

theorem registered_arrive {s : Link} (d : Dispatch) (h : s.registered = true) :
    (s.arrive d).registered = true := by
  unfold Link.arrive
  split_ifs
  · show (s.registered || _) = true
    rw [h, Bool.true_or]
  · exact h

/-- A message changes nothing but `Cdma_Info.link` and `updating`. -/
theorem cdma_rev_pack_frame (s : Link) (precv : List Byte) :
    ((s.cdma_rev_pack precv).Up ↔ s.Up) ∧
      (s.cdma_rev_pack precv).registered = s.registered ∧
      (s.cdma_rev_pack precv).stoaMq = s.stoaMq := by
  simp only [Link.cdma_rev_pack, Abox_DEV_USER_GET_SSTATUS]
  split_ifs <;> exact ⟨Iff.rfl, rfl, rfl⟩

theorem cdma_rev_pack_of_saysRegistered {s : Link} {precv : List Byte} (h : SaysRegistered precv) :
    (s.cdma_rev_pack precv).link = .connectServer := by
  have h12 : tcmd19 ≠ tcmd12 := by decide
  have h0 : (1 : BitVec 16) ≠ 0 := by decide
  simp only [Link.cdma_rev_pack, Abox_DEV_USER_GET_SSTATUS, h.head, h.cmd, h.status, h12, h0,
    if_true, if_false]

/-- Nothing else makes the device registered. -/
theorem cdma_rev_pack_of_not_saysRegistered {s : Link} {precv : List Byte}
    (h : ¬ SaysRegistered precv) (hlink : (s.cdma_rev_pack precv).link = .connectServer) :
    s.link = .connectServer := by
  simp only [Link.cdma_rev_pack, Abox_DEV_USER_GET_SSTATUS] at hlink
  split_ifs at hlink with hhead h12 h19 h0 h1
  · exact hlink
  · exact absurd ⟨hhead, h19, h1⟩ h
  · exact hlink
  · exact hlink
  · exact hlink

theorem linkOk_cdma_rev_pack_iff {s : Link} (h : LinkOk s) (precv : List Byte) :
    LinkOk (s.cdma_rev_pack precv) ↔ (SaysRegistered precv → s.Up ∧ s.registered = true) := by
  obtain ⟨hup, hregistered, -⟩ := cdma_rev_pack_frame s precv
  unfold LinkOk
  rw [hup, hregistered]
  constructor
  · intro hok hsays
    exact hok (cdma_rev_pack_of_saysRegistered hsays)
  · intro hok hlink
    by_cases hsays : SaysRegistered precv
    · exact hok hsays
    · exact h (cdma_rev_pack_of_not_saysRegistered hsays hlink)

theorem abox_thread_entry_of_recv {s : Link} {exBuf : List Byte} {mq : RtMq}
    (h : rt_mq_recv s.stoaMq buffLen = some (exBuf, mq)) :
    s.abox_thread_entry = if s.updating then { s with stoaMq := mq }
      else Link.cdma_rev_pack { s with stoaMq := mq } exBuf := by
  unfold Link.abox_thread_entry
  rw [h]

theorem abox_thread_entry_of_timeout {s : Link} (h : rt_mq_recv s.stoaMq buffLen = none) :
    s.abox_thread_entry = s := by
  unfold Link.abox_thread_entry
  rw [h]

theorem linkOk_abox_thread_entry_iff {s : Link} (h : LinkOk s) :
    LinkOk s.abox_thread_entry ↔ RegistrationOk s .aboxThreadEntry := by
  unfold RegistrationOk
  cases hrecv : rt_mq_recv s.stoaMq buffLen with
  | none =>
    rw [abox_thread_entry_of_timeout hrecv]
    exact iff_of_true h fun _ _ _ hsome => by cases hsome
  | some p =>
    obtain ⟨exBuf, mq⟩ := p
    have hiff := linkOk_cdma_rev_pack_iff (s := { s with stoaMq := mq }) h exBuf
    rw [abox_thread_entry_of_recv hrecv]
    split_ifs with hupdating
    · exact iff_of_true h fun hfalse => absurd hupdating (by rw [hfalse]; decide)
    · constructor
      · intro hok _ exBuf' mq' hsome
        obtain ⟨rfl, rfl⟩ := Prod.mk.inj (Option.some.inj hsome)
        exact hiff.1 hok
      · intro hok
        exact hiff.2 (hok (Bool.not_eq_true _ ▸ hupdating) exBuf mq rfl)

/-- Of all steps only `Abox_thread_entry` can go wrong. -/
theorem linkOk_step_iff {s s' : Link} {e : LinkEvent} (h : LinkOk s) (hstep : s.step e = some s') :
    LinkOk s' ↔ RegistrationOk s e := by
  cases e with
  | aboxThreadEntry =>
    obtain rfl := Option.some.inj hstep
    exact linkOk_abox_thread_entry_iff h
  | tryconnect =>
    refine iff_of_true ?_ trivial
    simp only [Link.step] at hstep
    split_ifs at hstep with hpanel
    obtain rfl := Option.some.inj hstep
    intro hlink
    exact absurd (h hlink).1.2 hpanel
  | connected style =>
    refine iff_of_true ?_ trivial
    simp only [Link.step] at hstep
    split_ifs at hstep with hstyle
    obtain rfl := Option.some.inj hstep
    intro hlink
    exact ⟨⟨hstyle, (h hlink).1.2⟩, (h hlink).2⟩
  | entryEthStatus =>
    obtain rfl := Option.some.inj hstep
    exact iff_of_true (fun hlink => by cases hlink) trivial
  | exitEthStatus =>
    obtain rfl := Option.some.inj hstep
    exact iff_of_true (fun hlink => by cases hlink) trivial
  | quitTcpConnect =>
    obtain rfl := Option.some.inj hstep
    exact iff_of_true (fun hlink => by cases hlink) trivial
  | arrive d =>
    obtain rfl := Option.some.inj hstep
    refine iff_of_true ?_ trivial
    unfold LinkOk LinkInfo.Up
    rw [toLinkInfo_arrive]
    intro hlink
    exact ⟨(h hlink).1, registered_arrive d (h hlink).2⟩
  | updateEnds =>
    refine iff_of_true ?_ trivial
    simp only [Link.step] at hstep
    split_ifs at hstep
    obtain rfl := Option.some.inj hstep
    exact h

/-- In every run from power-up, `CONNECT_SERVER` stands throughout for a
    connection that is up and on which a registration was received, if and only
    if no registration is handled otherwise. -/
theorem link_iff {slots : Fin 3 → List Byte} {tr : List (LinkEvent × Link)}
    (hrun : Path (fun s e s' => s.step e = some s') (Link.init slots) tr) :
    Always LinkOk (Link.init slots) tr ↔ AllSteps RegistrationOk (Link.init slots) tr := by
  have hinit : LinkOk (Link.init slots) := fun hlink => by cases hlink
  exact hrun.always_iff (fun _ => True) LinkOk (fun _ _ => trivial)
    (fun _ hok hstep => linkOk_step_iff hok hstep) trivial hinit

/-! ## Emptying the queue -/

/-- The queue holds no registration when a connection is set up or torn down,
    and frames arrive while one is up, with at least two bytes of contents. -/
def Drained (s : Link) : LinkEvent → Prop
  | .entryEthStatus => ∀ msg ∈ s.stoaMq.queue, ¬ SaysRegistered msg
  | .exitEthStatus => ∀ msg ∈ s.stoaMq.queue, ¬ SaysRegistered msg
  | .quitTcpConnect => ∀ msg ∈ s.stoaMq.queue, ¬ SaysRegistered msg
  | .arrive d => d.target = .mqSend → s.Up ∧ sizeofStPackCmd + 2 + 2 ≤ d.frame.length
  | _ => True

/-- Every registration in the queue is one of the connection that is up. -/
structure QueueOk (s : Link) : Prop where
  wellFormed : s.stoaMq.WellFormed 3
  msgSize : s.stoaMq.msgSize = buffLen
  current : ∀ msg ∈ s.stoaMq.queue, SaysRegistered msg → s.Up ∧ s.registered = true

theorem saysRegistered_of_append {frame rest : List Byte}
    (hlen : sizeofStPackCmd + 2 + 2 ≤ frame.length) (h : SaysRegistered (frame ++ rest)) :
    SaysRegistered frame := by
  have h12 : 12 ≤ frame.length := hlen
  obtain ⟨h1, h2, h3⟩ := h
  have hbyte : ∀ k < 12, (frame ++ rest).getD k 0 = frame.getD k 0 :=
    fun k hk => getD_append_of_lt (by omega)
  refine ⟨?_, ?_, ?_⟩
  · show IsHead (frame.getD 0 0)
    rw [← hbyte 0 (by omega)]
    exact h1
  · show frame.getD 1 0 = tcmd19
    rw [← hbyte 1 (by omega)]
    exact h2
  · show frame.getD 9 0 ++ frame.getD 8 0 = (1 : BitVec 16)
    rw [← hbyte 9 (by omega), ← hbyte 8 (by omega)]
    exact h3

theorem rt_mq_recv_eq {mq mq' : RtMq} {exBuf : List Byte} (hwf : mq.WellFormed 3)
    (hsize : mq.msgSize = buffLen) (h : rt_mq_recv mq buffLen = some (exBuf, mq')) :
    mq.queue = exBuf :: mq'.queue ∧ mq'.msgSize = mq.msgSize := by
  unfold rt_mq_recv at h
  cases hqueue : mq.queue with
  | nil =>
    rw [hqueue] at h
    cases h
  | cons slot queue =>
    rw [hqueue] at h
    obtain ⟨rfl, rfl⟩ := Prod.mk.inj (Option.some.inj h)
    have hslot := hwf.length_queue slot (by simp [hqueue])
    refine ⟨?_, rfl⟩
    rw [hsize, if_neg (lt_irrefl _), List.take_of_length_le (by omega)]

theorem QueueOk.arrive {s : Link} {d : Dispatch} (h : QueueOk s) (hd : Drained s (.arrive d)) :
    QueueOk (s.arrive d) := by
  by_cases htarget : d.target = .mqSend
  · obtain ⟨hup, hlen⟩ := hd htarget
    have hup' : (s.arrive d).Up := by
      unfold LinkInfo.Up
      rw [toLinkInfo_arrive]
      exact hup
    have hold : ∀ msg ∈ s.stoaMq.queue, SaysRegistered msg →
        (s.arrive d).Up ∧ (s.arrive d).registered = true :=
      fun msg hmsg hsays => ⟨hup', registered_arrive d (h.current msg hmsg hsays).2⟩
    have hmq : (s.arrive d).stoaMq = (rt_mq_send s.stoaMq d.frame).getD s.stoaMq := by
      unfold Link.arrive
      rw [if_pos htarget]
    cases hsend : rt_mq_send s.stoaMq d.frame with
    | none =>
      rw [hsend] at hmq
      exact ⟨hmq ▸ h.wellFormed, hmq ▸ h.msgSize, hmq ▸ hold⟩
    | some mq =>
      rw [hsend] at hmq
      have hwf := RtMq.wellFormed_send h.wellFormed hsend
      unfold rt_mq_send at hsend
      split_ifs at hsend with hlong
      cases hfree : s.stoaMq.free with
      | nil =>
        rw [hfree] at hsend
        cases hsend
      | cons slot free =>
        rw [hfree] at hsend
        obtain rfl := Option.some.inj hsend
        rw [Option.getD_some] at hmq
        refine ⟨hmq ▸ hwf, hmq ▸ h.msgSize, fun msg hmsg hsays => ?_⟩
        rw [hmq] at hmsg
        rcases List.mem_append.1 hmsg with hmsg | hmsg
        · exact hold msg hmsg hsays
        · obtain rfl := List.mem_singleton.1 hmsg
          have hregistration : IsRegistration d.frame := ⟨saysRegistered_of_append hlen hsays, hlen⟩
          refine ⟨hup', ?_⟩
          unfold Link.arrive
          rw [if_pos htarget]
          show (s.registered || decide (IsRegistration d.frame)) = true
          rw [decide_eq_true hregistration, Bool.or_true]
  · unfold Link.arrive
    rw [if_neg htarget]
    exact h

theorem QueueOk.abox_thread_entry {s : Link} (h : QueueOk s) : QueueOk s.abox_thread_entry := by
  cases hrecv : rt_mq_recv s.stoaMq buffLen with
  | none =>
    rw [abox_thread_entry_of_timeout hrecv]
    exact h
  | some p =>
    obtain ⟨exBuf, mq⟩ := p
    have hwf := RtMq.wellFormed_recv h.wellFormed hrecv
    obtain ⟨hqueue, hsize⟩ := rt_mq_recv_eq h.wellFormed h.msgSize hrecv
    have hcurrent : ∀ msg ∈ mq.queue, SaysRegistered msg → s.Up ∧ s.registered = true :=
      fun msg hmsg => h.current msg (by rw [hqueue]; exact List.mem_cons_of_mem _ hmsg)
    rw [abox_thread_entry_of_recv hrecv]
    split_ifs
    · exact ⟨hwf, hsize.trans h.msgSize, hcurrent⟩
    · obtain ⟨hup, hregistered, hmq⟩ := cdma_rev_pack_frame { s with stoaMq := mq } exBuf
      refine ⟨hmq ▸ hwf, hmq ▸ hsize.trans h.msgSize, fun msg hmsg hsays => ?_⟩
      rw [hmq] at hmsg
      rw [hup, hregistered]
      exact hcurrent msg hmsg hsays

theorem QueueOk.step {s s' : Link} {e : LinkEvent} (h : QueueOk s) (hd : Drained s e)
    (hstep : s.step e = some s') : QueueOk s' := by
  cases e with
  | aboxThreadEntry =>
    obtain rfl := Option.some.inj hstep
    exact h.abox_thread_entry
  | arrive d =>
    obtain rfl := Option.some.inj hstep
    exact h.arrive hd
  | tryconnect =>
    simp only [Link.step] at hstep
    split_ifs at hstep with hpanel
    obtain rfl := Option.some.inj hstep
    exact ⟨h.wellFormed, h.msgSize, fun msg hmsg hsays =>
      absurd (h.current msg hmsg hsays).1.2 hpanel⟩
  | connected style =>
    simp only [Link.step] at hstep
    split_ifs at hstep with hstyle
    obtain rfl := Option.some.inj hstep
    refine ⟨h.wellFormed, h.msgSize, fun msg hmsg hsays => ?_⟩
    obtain ⟨hup, hregistered⟩ := h.current msg hmsg hsays
    exact ⟨⟨hstyle, hup.2⟩, hregistered⟩
  | entryEthStatus =>
    obtain rfl := Option.some.inj hstep
    exact ⟨h.wellFormed, h.msgSize, fun msg hmsg hsays => absurd hsays (hd msg hmsg)⟩
  | exitEthStatus =>
    obtain rfl := Option.some.inj hstep
    exact ⟨h.wellFormed, h.msgSize, fun msg hmsg hsays => absurd hsays (hd msg hmsg)⟩
  | quitTcpConnect =>
    obtain rfl := Option.some.inj hstep
    exact ⟨h.wellFormed, h.msgSize, fun msg hmsg hsays => absurd hsays (hd msg hmsg)⟩
  | updateEnds =>
    simp only [Link.step] at hstep
    split_ifs at hstep
    obtain rfl := Option.some.inj hstep
    exact ⟨h.wellFormed, h.msgSize, h.current⟩

theorem QueueOk.registrationOk {s : Link} (h : QueueOk s) (e : LinkEvent) : RegistrationOk s e := by
  cases e with
  | aboxThreadEntry =>
    intro _ exBuf mq hrecv hsays
    obtain ⟨hqueue, -⟩ := rt_mq_recv_eq h.wellFormed h.msgSize hrecv
    exact h.current exBuf (by rw [hqueue]; exact List.mem_cons_self) hsays
  | _ => trivial

/-- With the queue empty of registrations whenever the connection changes, the
    state of the link is right throughout. -/
theorem linkOk_of_drained {slots : Fin 3 → List Byte} (hslots : ∀ i, (slots i).length = buffLen)
    {tr : List (LinkEvent × Link)}
    (hrun : Path (fun s e s' => s.step e = some s') (Link.init slots) tr)
    (hd : AllSteps Drained (Link.init slots) tr) : Always LinkOk (Link.init slots) tr := by
  have hqueue : QueueOk (Link.init slots) := by
    refine ⟨⟨by simp [Link.init], fun msg hmsg => (List.not_mem_nil hmsg).elim, fun msg hmsg => ?_⟩,
      rfl, fun msg hmsg => (List.not_mem_nil hmsg).elim⟩
    obtain ⟨i, rfl⟩ := List.mem_ofFn.1 hmsg
    exact hslots i
  have hlink : LinkOk (Link.init slots) := fun hserver => by cases hserver
  have hstep : ∀ {s s' : Link} {e : LinkEvent}, LinkOk s ∧ QueueOk s → Drained s e →
      s.step e = some s' → LinkOk s' ∧ QueueOk s' := by
    rintro s s' e ⟨hok, hq⟩ hdrained hs
    exact ⟨(linkOk_step_iff hok hs).2 (hq.registrationOk e), hq.step hdrained hs⟩
  have hboth := hrun.always_of_steps (fun s => LinkOk s ∧ QueueOk s) hstep ⟨hlink, hqueue⟩ hd
  exact hboth.mono fun s h => h.1

/-! ## Two runs -/

/-- A `TCMD_19` for the device 1 with the status 1 and no Cboxes. -/
def registrationFrame : List Byte :=
  [0x23, 0x13, 1, 0, 0, 0, 22, 0, 1, 0] ++ List.replicate 20 0 ++ [0x50, 0xC7]

/-- How `processDataFromServer` finds it. -/
def registrationDispatch : Dispatch := ⟨0, .mqSend, registrationFrame⟩

theorem isRegistration_registrationFrame : IsRegistration registrationFrame := by decide

/-- A connection is set up by wire, and a registration is received on it. -/
def registrationReceived : List LinkEvent :=
  [.tryconnect, .connected .clientEthConnect, .entryEthStatus, .arrive registrationDispatch]

/-- The device after power-up. -/
def exampleLink : Link := Link.init fun _ => List.replicate 1024 0

/-- The registration is handled at once. -/
theorem registration_handled :
    ∃ tr, exec Link.step exampleLink (registrationReceived ++ [.aboxThreadEntry]) = some tr ∧
      Always LinkOk exampleLink tr := by
  have hok : ∀ tr, exec Link.step exampleLink (registrationReceived ++ [.aboxThreadEntry]) =
      some tr → AllSteps RegistrationOk exampleLink tr → Always LinkOk exampleLink tr :=
    fun tr htr hsteps => (link_iff (exec_path (fun h => h) htr)).2 hsteps
  refine ⟨_, rfl, hok _ rfl ⟨trivial, trivial, trivial, trivial, ?_, trivial⟩⟩
  intro _ exBuf mq _ _
  exact ⟨⟨by decide, rfl⟩, decide_eq_true isRegistration_registrationFrame⟩

/-- The connection is torn down before `Abox_thread_entry` gets to the
    registration. The link is `CONNECT_SERVER` without a connection. -/
theorem stale_registration :
    ((State.empty.recv 1 (fun _ => .atFree) registrationFrame).log.map
      fun d => (d.target, d.frame)) = [(.mqSend, registrationFrame)] ∧
    ∃ tr, exec Link.step exampleLink
        (registrationReceived ++ [.exitEthStatus, .aboxThreadEntry]) = some tr ∧
      (last exampleLink tr).toLinkInfo = ⟨.connectServer, .nullDisconnenct, .panelDisconnect⟩ ∧
      ¬ Always LinkOk exampleLink tr := by
  have hlast : ∀ {tr : List (LinkEvent × Link)},
      (last exampleLink tr).toLinkInfo = ⟨.connectServer, .nullDisconnenct, .panelDisconnect⟩ →
      ¬ Always LinkOk exampleLink tr := by
    intro tr h halways
    have hup := (halways.last (congrArg LinkInfo.link h)).1
    exact hup.1 (congrArg LinkInfo.currentConnectStyle h)
  exact ⟨by decide +kernel, _, rfl, by decide +kernel, hlast (by decide +kernel)⟩

end Abox.Server
