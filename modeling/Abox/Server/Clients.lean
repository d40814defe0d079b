import Abox.Server.Link

/-!
# Two clients

In `ETH_WIFI_STYLE` both `tcp_eth_recv` (`include/drivers/eth/eth.c` lines
111–236) and `BsdTcpClient` (`CC3100/source/cc3100.c` lines 646–792) run. Each
tests `panelLink` before it connects, but sets it to `Panel_con_eth` only in
`entryEthStatus`, after the connection is there. A client that fails hands over
to the other one by an event: the wifi client waits for it forever, the ethernet
client for ten seconds.

* `exclusion`: only one client is ever connected if no client passes its test
  while the other one is trying to connect, or is still in its chat after
  `quitTcpConnect`; any other run can go on such that both are connected.
* `both_connected`: the wait of the ethernet client runs out while the wifi
  client is connecting.
-/

namespace Abox.Server

open Runs

/-! ## The loops -/

inductive Client
  | eth
  | wifi
  deriving DecidableEq

def Client.other : Client → Client
  | .eth => .wifi
  | .wifi => .eth

/-- Where a client is. -/
inductive Pc
  /-- `establishConnectionWithAP`. -/
  | accessPoint
  /-- Before the test of `panelLink`. -/
  | test
  /-- The delay in the loop of the test. -/
  | testDelay
  /-- From the test to the result of the connect call. -/
  | connect
  /-- The delay of `tcp_eth_recv` after a failed connect call. -/
  | errorDelay
  | sendCli
  | recvCli
  /-- Suspended on `cliEvent`. -/
  | waitCli
  /-- The delay after a successful connect call. -/
  | okDelay
  /-- From `entryEthStatus` to `exitEthStatus`. -/
  | chat
  /-- The delay in `exitEthStatus`. -/
  | exitDelay
  deriving DecidableEq

/-- The state of the link, where both clients are, `cnt1` of `tcp_eth_recv`, and
    which of `TCP_CLI_ETH` and `TCP_CLI_WIFI` are set in `cliEvent`; and whether
    `quitTcpConnect` was called since the last `entryEthStatus`. -/
structure Clients extends LinkInfo where
  pc : Client → Pc
  cnt1 : Byte
  cliEvent : Client → Bool
  quit : Bool

/-- `ethWifiStyleStart`. -/
def Clients.init : Clients :=
  { LinkInfo.init with
    pc := fun c => match c with
      | .eth => .test
      | .wifi => .accessPoint
    cnt1 := 0
    cliEvent := fun _ => false
    quit := false }

def Clients.goto (s : Clients) (c : Client) (pc : Pc) : Clients :=
  { s with pc := Function.update s.pc c pc }

/-- `rt_event_send` of the event that the client `c` receives: one that waits for
    it goes on with its test, and takes the event with it. -/
def Clients.rt_event_send (s : Clients) (c : Client) : Clients :=
  if s.pc c = .waitCli then s.goto c .test
  else { s with cliEvent := Function.update s.cliEvent c true }

/-- `rt_event_recv` by the client `c`, with `RT_EVENT_FLAG_CLEAR`. -/
def Clients.rt_event_recv (s : Clients) (c : Client) : Clients :=
  if s.cliEvent c then
    Clients.goto { s with cliEvent := Function.update s.cliEvent c false } c .test
  else s.goto c .waitCli

/-- The client `c` has connected, and calls `entryEthStatus`. -/
def Clients.entry (s : Clients) (c : Client) (style : CurrentConnectStyle) : Clients :=
  Clients.goto
    { s with
      toLinkInfo := entryEthStatus { s.toLinkInfo with currentConnectStyle := style }
      quit := false } c .chat

/-- The chat of the client `c` is over, and it calls `exitEthStatus`. -/
def Clients.exit (s : Clients) (c : Client) : Clients :=
  Clients.goto { s with toLinkInfo := exitEthStatus s.toLinkInfo } c .exitDelay

/-- What a client meets where it is. -/
inductive Outcome
  /-- Nothing: it goes on. -/
  | go
  /-- A delay or a time limit has run out. -/
  | elapsed
  /-- At the test: the network interface is up, or `Sys_Setup.app.id` is set. -/
  | ready (yes : Bool)
  | noSocket
  /-- The connect call fails; `WIFI_AP_CLOSE` was sent. -/
  | refused (apClose : Bool)
  | connected
  /-- Bytes for `Eth_Rev_Buff`. -/
  | received
  | closed

/-- A step of `tcp_eth_recv`. A socket is asked for until there is one. `cnt`,
    which decides when the next server address is tried, is left out. -/
def Clients.tcp_eth_recv (s : Clients) (o : Outcome) : Option Clients :=
  match s.pc .eth, o with
  | .test, .ready netifUp =>
    if netifUp = false ∨ s.panelLink = .panelConEth then some (s.goto .eth .testDelay)
    else some (Clients.goto { s with panelLink := .panelTryconnect } .eth .connect)
  | .testDelay, .elapsed =>
    if s.panelLink = .panelConEth then some (s.goto .eth .test)
    else if 10 < s.cnt1.toNat then some (Clients.goto { s with cnt1 := s.cnt1 + 1 } .eth .sendCli)
    else some (Clients.goto { s with cnt1 := s.cnt1 + 1 } .eth .test)
  | .connect, .noSocket => some s
  | .connect, .refused _ => some (s.goto .eth .errorDelay)
  | .errorDelay, .elapsed => some (s.goto .eth .sendCli)
  | .sendCli, .go => some ((s.rt_event_send .wifi).goto .eth .recvCli)
  | .recvCli, .go => some (s.rt_event_recv .eth)
  -- `10*1000` ticks
  | .waitCli, .elapsed => some (s.goto .eth .test)
  | .connect, .connected => some (s.goto .eth .okDelay)
  | .okDelay, .elapsed => some (s.entry .eth .clientEthConnect)
  | .chat, .received => some s
  | .chat, .closed => some (s.exit .eth)
  | .exitDelay, .elapsed => some (Clients.goto { s with cnt1 := 0 } .eth .test)
  | _, _ => none

/-- A step of `BsdTcpClient`, and of the loop of `wifi_recv_thread` around it
    (lines 1064–1090). `cnt` is left out as before. -/
def Clients.bsdTcpClient (s : Clients) (o : Outcome) : Option Clients :=
  match s.pc .wifi, o with
  | .accessPoint, .go => some (s.goto .wifi .recvCli)
  | .recvCli, .go => some (s.rt_event_recv .wifi)
  | .test, .ready appId =>
    if appId = false ∨ s.panelLink = .panelConEth then some (s.goto .wifi .testDelay)
    else some (Clients.goto { s with panelLink := .panelTryconnect } .wifi .connect)
  | .testDelay, .elapsed => some (s.goto .wifi .test)
  | .connect, .noSocket => some (s.goto .wifi .test)
  | .connect, .refused apClose =>
    if apClose then some (s.goto .wifi .accessPoint) else some (s.goto .wifi .sendCli)
  | .sendCli, .go => some ((s.rt_event_send .eth).goto .wifi .recvCli)
  | .connect, .connected => some (s.goto .wifi .okDelay)
  | .okDelay, .elapsed => some (s.entry .wifi .clientWifiConnect)
  | .chat, .received => some s
  | .chat, .closed => some (s.exit .wifi)
  | .exitDelay, .elapsed => some (s.goto .wifi .test)
  | _, _ => none

/-- A step of a client, or a `quitTcpConnect` of some other thread. -/
inductive ClientEvent
  | client (c : Client) (o : Outcome)
  | quitTcpConnect

def Clients.step (s : Clients) : ClientEvent → Option Clients
  | .client .eth o => s.tcp_eth_recv o
  | .client .wifi o => s.bsdTcpClient o
  | .quitTcpConnect =>
    some { s with toLinkInfo := Server.quitTcpConnect s.toLinkInfo, quit := true }

def Clients.Step (s : Clients) (e : ClientEvent) (s' : Clients) : Prop := s.step e = some s'

/-! ## One connection at a time -/

/-- The clients are not both between `entryEthStatus` and `exitEthStatus`. -/
def Exclusive (s : Clients) : Prop := ¬ (s.pc .eth = .chat ∧ s.pc .wifi = .chat)

/-- What a client puts into `Eth_Rev_Buff`, and what it tears down, is not in use
    by the other one. -/
def OwnConnection (s : Clients) : ClientEvent → Prop
  | .client c .received => s.pc c.other ≠ .chat
  | .client c .closed => s.pc c.other ≠ .chat
  | _ => True

/-- A client is between its test and `entryEthStatus`. -/
def Pc.Trying (pc : Pc) : Prop := pc = .connect ∨ pc = .okDelay

/-- A client that passes its test does so neither while the other one is trying
    to connect, nor while it is still in its chat after `quitTcpConnect`. -/
def TestOk (s : Clients) : ClientEvent → Prop
  | .client c (.ready true) => s.panelLink ≠ .panelConEth →
      ¬ (s.pc c.other).Trying ∧ ¬ (s.pc c.other = .chat ∧ s.quit = true)
  | _ => True

/-- The event is the test of a client. -/
def ClientEvent.IsTest : ClientEvent → Prop
  | .client _ (.ready _) => True
  | _ => False

/-! ## Steps -/

/-- From the test to `exitEthStatus`. -/
def Pc.Busy (pc : Pc) : Prop := pc.Trying ∨ pc = .chat

instance (pc : Pc) : Decidable pc.Trying := inferInstanceAs (Decidable (_ ∨ _))

instance (pc : Pc) : Decidable pc.Busy := inferInstanceAs (Decidable (_ ∨ _))

@[simp] theorem Clients.pc_goto_self (s : Clients) (c : Client) (pc : Pc) :
    (s.goto c pc).pc c = pc := Function.update_self ..

@[simp] theorem Clients.pc_goto_of_ne (s : Clients) {c d : Client} (h : d ≠ c) (pc : Pc) :
    (s.goto c pc).pc d = s.pc d := Function.update_of_ne h ..

theorem Client.other_ne (c : Client) : c.other ≠ c := by
  cases c <;> decide

theorem Client.eq_or_eq_other (c d : Client) : d = c ∨ d = c.other := by
  cases c <;> cases d <;> decide

/-- A step after which no client is busy, or in its chat, that was not before. -/
structure Quiet (s s' : Clients) : Prop where
  busy : ∀ c, (s'.pc c).Busy → (s.pc c).Busy
  chat : ∀ c, s'.pc c = .chat → s.pc c = .chat
  panelLink : s'.panelLink = s.panelLink
  quit : s'.quit = s.quit

theorem Quiet.refl (s : Clients) : Quiet s s := ⟨fun _ h => h, fun _ h => h, rfl, rfl⟩

theorem Quiet.trans {s t u : Clients} (h : Quiet s t) (h' : Quiet t u) : Quiet s u :=
  ⟨fun c hc => h.busy c (h'.busy c hc), fun c hc => h.chat c (h'.chat c hc),
    h'.panelLink.trans h.panelLink, h'.quit.trans h.quit⟩

theorem quiet_goto {s : Clients} {c : Client} {pc : Pc} (hbusy : pc.Busy → (s.pc c).Busy)
    (hchat : pc ≠ .chat) : Quiet s (s.goto c pc) := by
  refine ⟨fun d hd => ?_, fun d hd => ?_, rfl, rfl⟩
  · by_cases hdc : d = c
    · subst hdc
      rw [Clients.pc_goto_self] at hd
      exact hbusy hd
    · rwa [Clients.pc_goto_of_ne s hdc] at hd
  · by_cases hdc : d = c
    · subst hdc
      rw [Clients.pc_goto_self] at hd
      exact absurd hd hchat
    · rwa [Clients.pc_goto_of_ne s hdc] at hd

/-- Going to a place where a client is not busy. -/
theorem Quiet.goto_idle {s s' : Clients} (h : Quiet s s') (c : Client) {pc : Pc}
    (hpc : ¬ pc.Busy) : Quiet s (s'.goto c pc) :=
  h.trans (quiet_goto (fun hbusy => absurd hbusy hpc) fun hchat => hpc (Or.inr hchat))

theorem quiet_rt_event_send (s : Clients) (c : Client) : Quiet s (s.rt_event_send c) := by
  unfold Clients.rt_event_send
  split_ifs
  · exact (Quiet.refl s).goto_idle c (by decide)
  · exact ⟨fun _ h => h, fun _ h => h, rfl, rfl⟩

theorem quiet_rt_event_recv (s : Clients) (c : Client) : Quiet s (s.rt_event_recv c) := by
  have hcli : Quiet s { s with cliEvent := Function.update s.cliEvent c false } :=
    ⟨fun _ h => h, fun _ h => h, rfl, rfl⟩
  unfold Clients.rt_event_recv
  split_ifs
  · exact hcli.goto_idle c (by decide)
  · exact (Quiet.refl s).goto_idle c (by decide)

/-- What a client has met in a quiet step. -/
def QuietOutcome (s : Clients) (c : Client) : Outcome → Prop
  | .ready true => s.panelLink = .panelConEth
  | .received => s.pc c = .chat
  | .closed => False
  | _ => True

/-- All that a step of a client can do. -/
inductive Moved (s : Clients) (c : Client) (o : Outcome) (s' : Clients) : Prop
  | quiet : Quiet s s' → QuietOutcome s c o → Moved s c o s'
  | passes : o = .ready true → s.panelLink ≠ .panelConEth →
    s' = Clients.goto { s with panelLink := .panelTryconnect } c .connect → Moved s c o s'
  | entry (style : CurrentConnectStyle) : s.pc c = .okDelay → o = .elapsed →
    s' = s.entry c style → Moved s c o s'
  | exit : s.pc c = .chat → o = .closed → s' = s.exit c → Moved s c o s'

/-- The test of both clients. -/
theorem moved_test {s s' : Clients} {c : Client} {yes : Bool}
    (h : (if yes = false ∨ s.panelLink = .panelConEth then some (s.goto c .testDelay)
      else some (Clients.goto { s with panelLink := .panelTryconnect } c .connect)) = some s') :
    Moved s c (.ready yes) s' := by
  split_ifs at h with hwait
  · obtain rfl := Option.some.inj h
    refine .quiet ((Quiet.refl s).goto_idle c (by decide)) ?_
    cases yes with
    | false => trivial
    | true => exact hwait.resolve_left nofun
  · obtain rfl := Option.some.inj h
    push Not at hwait
    have hyes : yes = true := by simpa using hwait.1
    exact .passes (by rw [hyes]) hwait.2 rfl

/-- Going on to a place where a client is not busy. -/
theorem Moved.of_idle {s s' t : Clients} {c : Client} {o : Outcome} {pc : Pc}
    (h : some (Clients.goto s' c pc) = some t) (hquiet : Quiet s s') (hpc : ¬ pc.Busy)
    (ho : QuietOutcome s c o) : Moved s c o t := by
  obtain rfl := Option.some.inj h
  exact .quiet (hquiet.goto_idle c hpc) ho

theorem moved_connected {s s' : Clients} {c : Client} (hpc : s.pc c = .connect)
    (h : some (s.goto c .okDelay) = some s') : Moved s c .connected s' := by
  obtain rfl := Option.some.inj h
  exact .quiet (quiet_goto (fun _ => hpc ▸ (by decide)) (by decide)) trivial

theorem moved_received {s s' : Clients} {c : Client} (hpc : s.pc c = .chat)
    (h : some s = some s') : Moved s c .received s' := by
  obtain rfl := Option.some.inj h
  exact .quiet (Quiet.refl s) hpc

theorem moved_eth {s s' : Clients} {o : Outcome} (h : s.tcp_eth_recv o = some s') :
    Moved s .eth o s' := by
  have hcnt1 : ∀ n, Quiet s { s with cnt1 := n } :=
    fun _ => ⟨fun _ h => h, fun _ h => h, rfl, rfl⟩
  unfold Clients.tcp_eth_recv at h
  split at h
  -- the test, and the delay in its loop
  case h_1 => exact moved_test h
  case h_2 =>
    split_ifs at h
    · exact .of_idle h (Quiet.refl s) (by decide) trivial
    · exact .of_idle h (hcnt1 _) (by decide) trivial
    · exact .of_idle h (hcnt1 _) (by decide) trivial
  -- no socket, a failed connect call, the delay after it
  case h_3 =>
    obtain rfl := Option.some.inj h
    exact .quiet (Quiet.refl s) trivial
  case h_4 => exact .of_idle h (Quiet.refl s) (by decide) trivial
  case h_5 => exact .of_idle h (Quiet.refl s) (by decide) trivial
  -- the events
  case h_6 => exact .of_idle h (quiet_rt_event_send s _) (by decide) trivial
  case h_7 =>
    obtain rfl := Option.some.inj h
    exact .quiet (quiet_rt_event_recv s _) trivial
  case h_8 => exact .of_idle h (Quiet.refl s) (by decide) trivial
  -- the connection
  case h_9 hpc => exact moved_connected hpc h
  case h_10 hpc => exact .entry _ hpc rfl (Option.some.inj h).symm
  case h_11 hpc => exact moved_received hpc h
  case h_12 hpc => exact .exit hpc rfl (Option.some.inj h).symm
  case h_13 => exact .of_idle h (hcnt1 _) (by decide) trivial
  case h_14 => cases h

theorem moved_wifi {s s' : Clients} {o : Outcome} (h : s.bsdTcpClient o = some s') :
    Moved s .wifi o s' := by
  unfold Clients.bsdTcpClient at h
  split at h
  -- the access point, and the event to start
  case h_1 => exact .of_idle h (Quiet.refl s) (by decide) trivial
  case h_2 =>
    obtain rfl := Option.some.inj h
    exact .quiet (quiet_rt_event_recv s _) trivial
  -- the test, and the delay in its loop
  case h_3 => exact moved_test h
  case h_4 => exact .of_idle h (Quiet.refl s) (by decide) trivial
  -- no socket, a failed connect call, and handing over
  case h_5 => exact .of_idle h (Quiet.refl s) (by decide) trivial
  case h_6 =>
    split_ifs at h
    · exact .of_idle h (Quiet.refl s) (by decide) trivial
    · exact .of_idle h (Quiet.refl s) (by decide) trivial
  case h_7 => exact .of_idle h (quiet_rt_event_send s _) (by decide) trivial
  -- the connection
  case h_8 hpc => exact moved_connected hpc h
  case h_9 hpc => exact .entry _ hpc rfl (Option.some.inj h).symm
  case h_10 hpc => exact moved_received hpc h
  case h_11 hpc => exact .exit hpc rfl (Option.some.inj h).symm
  case h_12 => exact .of_idle h (Quiet.refl s) (by decide) trivial
  case h_13 => cases h

theorem moved_client {s s' : Clients} {c : Client} {o : Outcome}
    (h : s.Step (.client c o) s') : Moved s c o s' := by
  cases c with
  | eth => exact moved_eth h
  | wifi => exact moved_wifi h

/-! ## The flag -/

/-- Not both clients are busy, and the flag is set while one of them is in its
    chat, unless `quitTcpConnect` has cleared it. -/
structure ClientsInv (s : Clients) : Prop where
  one : ∀ c, (s.pc c).Busy → ¬ (s.pc c.other).Busy
  flag : ∀ c, s.pc c = .chat → s.quit = false → s.panelLink = .panelConEth

theorem ClientsInv.quiet {s s' : Clients} (h : ClientsInv s) (hq : Quiet s s') :
    ClientsInv s' := by
  constructor
  · intro c hc hother
    exact h.one c (hq.busy c hc) (hq.busy c.other hother)
  · intro c hc hquit
    rw [hq.panelLink]
    exact h.flag c (hq.chat c hc) (hq.quit ▸ hquit)

/-- While one client alone is busy, at a place the flag agrees with. -/
theorem ClientsInv.alone {s : Clients} {c : Client} (hother : ¬ (s.pc c.other).Busy)
    (hflag : s.pc c = .chat → s.quit = false → s.panelLink = .panelConEth) : ClientsInv s := by
  constructor
  · intro d hd hd'
    rcases Client.eq_or_eq_other c d with rfl | rfl
    · exact hother hd'
    · exact hother hd
  · intro d hd
    rcases Client.eq_or_eq_other c d with rfl | rfl
    · exact hflag hd
    · exact absurd (Or.inr hd) hother

theorem ClientsInv.step {s s' : Clients} {e : ClientEvent} (h : ClientsInv s) (hok : TestOk s e)
    (hstep : s.Step e s') : ClientsInv s' := by
  cases e with
  | quitTcpConnect =>
    obtain rfl := Option.some.inj hstep
    exact ⟨h.one, fun c _ hquit => by cases hquit⟩
  | client c o =>
    have hne := c.other_ne
    cases moved_client hstep with
    | quiet hq _ => exact h.quiet hq
    | passes ho hpanel hs' =>
      subst ho hs'
      obtain ⟨htrying, hchat⟩ := hok hpanel
      -- the flag keeps the client out unless `quitTcpConnect` has cleared it
      have hother : ¬ (s.pc c.other).Busy := by
        rintro (hbusy | hbusy)
        · exact htrying hbusy
        · cases hquit : s.quit with
          | true => exact hchat ⟨hbusy, hquit⟩
          | false => exact hpanel (h.flag _ hbusy hquit)
      apply ClientsInv.alone (c := c)
      · rw [Clients.pc_goto_of_ne _ hne]
        exact hother
      · intro hpc
        rw [Clients.pc_goto_self] at hpc
        cases hpc
    | entry style hpc _ hs' =>
      subst hs'
      apply ClientsInv.alone (c := c)
      · unfold Clients.entry
        rw [Clients.pc_goto_of_ne _ hne]
        exact h.one c (Or.inl (Or.inr hpc))
      · intro _ _
        rfl
    | exit hpc _ hs' =>
      subst hs'
      apply ClientsInv.alone (c := c)
      · unfold Clients.exit
        rw [Clients.pc_goto_of_ne _ hne]
        exact h.one c (Or.inr hpc)
      · intro hchat
        unfold Clients.exit at hchat
        rw [Clients.pc_goto_self] at hchat
        cases hchat

theorem ClientsInv.exclusive {s : Clients} (h : ClientsInv s) : Exclusive s :=
  fun ⟨heth, hwifi⟩ => h.one .eth (Or.inr heth) (Or.inr hwifi)

theorem ClientsInv.ownConnection {s s' : Clients} {e : ClientEvent} (h : ClientsInv s)
    (hstep : s.Step e s') : OwnConnection s e := by
  have hown : ∀ c, s.pc c = .chat → s.pc c.other ≠ .chat :=
    fun c hc hother => h.one c (Or.inr hc) (Or.inr hother)
  cases e with
  | quitTcpConnect => trivial
  | client c o =>
    cases moved_client hstep with
    | quiet _ ho =>
      cases o with
      | received => exact hown c ho
      | closed => exact ho.elim
      | _ => trivial
    | passes ho _ _ => subst ho; trivial
    | entry _ _ ho _ => subst ho; trivial
    | exit hpc ho _ => subst ho; exact hown c hpc

/-! ## How an overlap goes on -/

theorem clients_init_inv : ClientsInv Clients.init := by
  constructor
  · intro c _ hother
    cases c <;> revert hother <;> decide
  · intro c hc
    cases c <;> cases hc

/-- A client that is trying to connect gets to its chat if the connect call
    succeeds, without any further test. -/
theorem exists_chat {s : Clients} {c : Client} (h : (s.pc c).Busy) :
    ∃ post, Path Clients.Step s post ∧ (∀ p ∈ post, ¬ p.1.IsTest) ∧
      (last s post).pc c = .chat ∧ (last s post).pc c.other = s.pc c.other := by
  have hokDelay : ∀ t : Clients, t.pc c = .okDelay →
      ∃ style, t.Step (.client c .elapsed) (t.entry c style) := by
    intro t ht
    cases c with
    | eth =>
      refine ⟨.clientEthConnect, ?_⟩
      show t.tcp_eth_recv .elapsed = _
      unfold Clients.tcp_eth_recv
      rw [ht]
    | wifi =>
      refine ⟨.clientWifiConnect, ?_⟩
      show t.bsdTcpClient .elapsed = _
      unfold Clients.bsdTcpClient
      rw [ht]
  have hchat : ∀ (t : Clients) style, (t.entry c style).pc c = .chat ∧
      (t.entry c style).pc c.other = t.pc c.other := fun t style =>
    ⟨Clients.pc_goto_self .., Clients.pc_goto_of_ne _ c.other_ne _⟩
  rcases h with (hpc | hpc) | hpc
  · have hconnected : s.Step (.client c .connected) (s.goto c .okDelay) := by
      cases c with
      | eth =>
        show s.tcp_eth_recv .connected = _
        unfold Clients.tcp_eth_recv
        rw [hpc]
      | wifi =>
        show s.bsdTcpClient .connected = _
        unfold Clients.bsdTcpClient
        rw [hpc]
    obtain ⟨style, hentry⟩ := hokDelay (s.goto c .okDelay) (Clients.pc_goto_self ..)
    refine ⟨_, .cons hconnected (.cons hentry (.nil _)), by simp [ClientEvent.IsTest],
      (hchat _ style).1, ?_⟩
    exact (hchat _ style).2.trans (Clients.pc_goto_of_ne _ c.other_ne _)
  · obtain ⟨style, hentry⟩ := hokDelay s hpc
    exact ⟨_, .cons hentry (.nil _), by simp [ClientEvent.IsTest], hchat s style⟩
  · exact ⟨[], .nil s, by simp, hpc, rfl⟩

/-- If both clients are busy, both can get to their chat. -/
theorem exists_both_chat {s : Clients} {c : Client} (h : (s.pc c).Busy)
    (hother : (s.pc c.other).Busy) :
    ∃ post, Path Clients.Step s post ∧ (∀ p ∈ post, ¬ p.1.IsTest) ∧ ¬ Exclusive (last s post) := by
  obtain ⟨post, hpath, htest, hchat, hkept⟩ := exists_chat h
  rw [← hkept] at hother
  obtain ⟨post', hpath', htest', hchat', hkept'⟩ := exists_chat hother
  have hback : c.other.other = c := by cases c <;> rfl
  rw [hback, hchat] at hkept'
  refine ⟨post ++ post', path_append.2 ⟨hpath, hpath'⟩, fun p hp => ?_, ?_⟩
  · rcases List.mem_append.1 hp with hp | hp
    · exact htest p hp
    · exact htest' p hp
  · rw [last_append]
    intro hexclusive
    apply hexclusive
    cases c with
    | eth => exact ⟨hkept', hchat'⟩
    | wifi => exact ⟨hchat', hkept'⟩

/-- After a test that is not as it should be, both clients are busy. -/
theorem busy_of_not_testOk {s s' : Clients} {e : ClientEvent} (hok : ¬ TestOk s e)
    (hstep : s.Step e s') : ∃ c, (s'.pc c).Busy ∧ (s'.pc c.other).Busy := by
  unfold TestOk at hok
  split at hok
  case h_2 => exact absurd trivial hok
  case h_1 c =>
    push Not at hok
    obtain ⟨hpanel, hother⟩ := hok
    have hbusy : (s.pc c.other).Busy := by
      by_cases htrying : (s.pc c.other).Trying
      · exact Or.inl htrying
      · exact Or.inr (hother htrying).1
    refine ⟨c, ?_⟩
    cases moved_client hstep with
    | quiet _ ho => exact absurd ho hpanel
    | entry _ _ ho _ => cases ho
    | exit _ ho _ => cases ho
    | passes _ _ hs' =>
      subst hs'
      rw [Clients.pc_goto_self, Clients.pc_goto_of_ne _ c.other_ne]
      exact ⟨by decide, hbusy⟩

/-- If no client passes its test while the other one is trying to connect, or is
    still in its chat after `quitTcpConnect`, then only ever one client is
    connected, and what a client receives and tears down is its own. If one does,
    then the run up to there can go on, without any further test, such that both
    are connected. -/
theorem exclusion {tr : List (ClientEvent × Clients)}
    (hrun : Path Clients.Step Clients.init tr) :
    (AllSteps TestOk Clients.init tr →
      Always Exclusive Clients.init tr ∧ AllSteps OwnConnection Clients.init tr) ∧
    (¬ AllSteps TestOk Clients.init tr → ∃ pre post, pre <+: tr ∧
      Path Clients.Step Clients.init (pre ++ post) ∧ (∀ p ∈ post, ¬ p.1.IsTest) ∧
      ¬ Always Exclusive Clients.init (pre ++ post)) := by
  constructor
  · intro hok
    have hinv := hrun.always_of_steps ClientsInv ClientsInv.step clients_init_inv hok
    have hown : AllSteps OwnConnection Clients.init tr :=
      hrun.allSteps (fun h hstep => h.ownConnection hstep) hinv
    exact ⟨hinv.mono fun s h => h.exclusive, hown⟩
  · intro hok
    obtain ⟨pre, e, s', hpre, hbad⟩ := exists_step_of_not_allSteps hok
    obtain ⟨rest, hrest⟩ := hpre
    rw [← hrest] at hrun
    obtain ⟨hpre', -⟩ := path_append.1 hrun
    obtain ⟨-, hlast⟩ := path_append.1 hpre'
    cases hlast with
    | cons hstep _ =>
      obtain ⟨c, hc, hother⟩ := busy_of_not_testOk hbad hstep
      obtain ⟨post, hpost, htest, hboth⟩ := exists_both_chat hc hother
      have hend : last Clients.init (pre ++ [(e, s')]) = s' := by
        rw [last_append]
        rfl
      refine ⟨pre ++ [(e, s')], post, ⟨rest, hrest⟩, path_append.2 ⟨hpre', ?_⟩, htest,
        fun halways => hboth ?_⟩
      · rw [hend]
        exact hpost
      · have hexclusive := halways.last
        rwa [last_append, hend] at hexclusive

/-! ## Two runs -/

instance (s : Clients) : (e : ClientEvent) → Decidable (TestOk s e)
  | .client _ (.ready true) => inferInstanceAs (Decidable (_ → _))
  | .client _ (.ready false) => inferInstanceAs (Decidable True)
  | .client _ .go | .client _ .elapsed | .client _ .noSocket | .client _ (.refused _)
  | .client _ .connected | .client _ .received | .client _ .closed | .quitTcpConnect =>
    inferInstanceAs (Decidable True)

/-- The ethernet client cannot connect, and hands over to the wifi client, which
    connects, receives something and is disconnected. Meanwhile the ethernet
    client finds the flag set; it connects when the wifi client is done, and the
    wifi client waits in its turn. -/
def handOver : List ClientEvent :=
  [.client .wifi .go, .client .wifi .go,
    .client .eth (.ready true), .client .eth (.refused false), .client .eth .elapsed,
    .client .eth .go, .client .eth .go,
    .client .wifi (.ready true), .client .wifi .connected, .client .wifi .elapsed,
    .client .eth .elapsed, .client .eth (.ready true),
    .client .wifi .received, .client .wifi .closed, .client .eth .elapsed,
    .client .wifi .elapsed,
    .client .eth (.ready true), .client .eth .connected, .client .eth .elapsed,
    .client .wifi (.ready true), .client .eth .received, .client .wifi .elapsed]

theorem exclusion_handOver :
    ∃ tr, exec Clients.step Clients.init handOver = some tr ∧
      Always Exclusive Clients.init tr ∧ AllSteps OwnConnection Clients.init tr := by
  obtain ⟨tr, htr, hok⟩ := exists_exec (P := fun tr => AllSteps TestOk Clients.init tr)
    (show (exec Clients.step Clients.init handOver).any _ = true by decide +kernel)
  exact ⟨tr, htr, (exclusion (exec_path (fun h => h) htr)).1 hok⟩

/-- The ethernet client cannot connect, and hands over to the wifi client, whose
    connect call takes longer than ten seconds. The ethernet client tries again;
    both succeed. -/
def slowWifi : List ClientEvent :=
  [.client .wifi .go, .client .wifi .go,
    .client .eth (.ready true), .client .eth (.refused false), .client .eth .elapsed,
    .client .eth .go, .client .eth .go,
    .client .wifi (.ready true),
    .client .eth .elapsed, .client .eth (.ready true), .client .eth .connected,
    .client .eth .elapsed,
    .client .wifi .connected, .client .wifi .elapsed]

theorem both_connected :
    ∃ tr, exec Clients.step Clients.init slowWifi = some tr ∧
      (last Clients.init tr).pc .eth = .chat ∧ (last Clients.init tr).pc .wifi = .chat ∧
      ¬ Always Exclusive Clients.init tr := by
  have hlast : ∀ {tr : List (ClientEvent × Clients)},
      (last Clients.init tr).pc .eth = .chat → (last Clients.init tr).pc .wifi = .chat →
      ¬ Always Exclusive Clients.init tr :=
    fun heth hwifi halways => halways.last ⟨heth, hwifi⟩
  exact ⟨_, rfl, by decide, by decide, hlast (by decide) (by decide)⟩

end Abox.Server
