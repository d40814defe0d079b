import Abox.Config.ServerInfo
import Abox.Lib.Runs

/-!
# The two halves of the stored record

`WRITE_SERVER_INFO` is meant to change the list of servers, and
`WRITE_NETCONFIG_INFO` the network configuration. Both read the whole record,
change it and write it back.

* `independence_iff`: in a run of writes each half stays what its own last
  accepted write gave exactly when every write meets `IndependenceOk`.
* `write_server_clears_netConfig`: an accepted `WRITE_SERVER_INFO` clears the
  network configuration.
-/

namespace Abox.Config

open Runs

/-- The two kinds of write. A null `RWriteInfo` is possible for the first one
    only. -/
inductive InfoWrite
  | server (RWriteInfo : Option ServerNetInformation)
  | netconfig (RWriteInfo : ServerNetInformation)

/-- A system, and what its record should hold: the list of servers and the
    network configuration of the last accepted writes. -/
structure Tracked where
  sys : ServerSystem
  serverNetNum : BitVec 32
  netInfo : Fin serverNumMax → NetInfo
  netConfig : SerConConfig

/-- Before the first write the record should hold what it holds. -/
def Tracked.start (s : ServerSystem) : Tracked :=
  ⟨s, s.stored.serverNetNum, s.stored.netInfo, s.stored.netConfig⟩

/-- The system and the expected record after a write. -/
def Tracked.write (t : Tracked) : InfoWrite → Option Tracked
  | .server RWriteInfo =>
    (controlServerInfo t.sys .writeServerInfo RWriteInfo).map fun (s, _) =>
      match RWriteInfo with
      | none => { t with sys := s }
      | some r =>
        if r.num ≤ serverWriteNum then
          { t with
            sys := s
            serverNetNum := (writtenServerInfo r).serverNetNum
            netInfo := (writtenServerInfo r).netInfo }
        else { t with sys := s }
  | .netconfig RWriteInfo =>
    (controlServerInfo t.sys .writeNetconfigInfo (some RWriteInfo)).map fun (s, _) =>
      { t with sys := s, netConfig := RWriteInfo.netConfig }

def Tracked.Step (t : Tracked) (w : InfoWrite) (t' : Tracked) : Prop := t.write w = some t'

/-- Each half of the record is what its last accepted write gave. -/
def Tracked.Independent (t : Tracked) : Prop :=
  t.sys.stored = ⟨t.serverNetNum, t.netInfo, t.netConfig⟩

/-- The writes that leave the other half alone, by the record before them: an
    accepted `WRITE_SERVER_INFO` finds a cleared network configuration, a rejected
    one finds a record that passes the check. -/
def IndependenceOk (t : Tracked) : InfoWrite → Prop
  | .server RWriteInfo =>
    (Accepted RWriteInfo → t.sys.stored.netConfig = SerConConfig.zero) ∧
      (¬ Accepted RWriteInfo → t.sys.stored.valid = true)
  | .netconfig _ => True

theorem checked_eq_iff {s : ServerNetInformation} : s.checked = s ↔ s.valid = true := by
  constructor
  · intro h
    rw [← h]
    exact checked_valid s
  · exact checked_of_valid

/-- An accepted `WRITE_SERVER_INFO` clears the network configuration. -/
theorem write_server_clears_netConfig (s : ServerSystem) {r : ServerNetInformation}
    (hr : r.num ≤ serverWriteNum) :
    ∃ s', controlServerInfo s .writeServerInfo (some r) = some (s', some r) ∧
      s'.stored.netConfig = SerConConfig.zero := by
  obtain ⟨s', heq, hst, -⟩ := controlServerInfo_writeServer s hr
  exact ⟨s', heq, by rw [hst]; rfl⟩

/-- One write keeps the halves as expected exactly if it meets
    `IndependenceOk`. -/
theorem step_independent_iff {t t' : Tracked} {w : InfoWrite} (hind : t.Independent)
    (h : t.Step w t') : t'.Independent ↔ IndependenceOk t w := by
  unfold Tracked.Independent at hind
  cases w with
  | server RWriteInfo =>
    by_cases hacc : Accepted RWriteInfo
    · obtain ⟨r, rfl, hr⟩ := hacc
      obtain ⟨s', heq, hst, -⟩ := controlServerInfo_writeServer t.sys hr
      have ht' : (⟨s', (writtenServerInfo r).serverNetNum, (writtenServerInfo r).netInfo,
          t.netConfig⟩ : Tracked) = t' := by
        simpa [Tracked.Step, Tracked.write, heq, hr] using h
      have hacc : Accepted (some r) := ⟨r, rfl, hr⟩
      rw [← ht']
      unfold Tracked.Independent
      simp only [IndependenceOk, hacc, true_implies, not_true_eq_false, false_implies, and_true]
      rw [hst, hind]
      constructor
      · intro heq
        exact (congrArg ServerNetInformation.netConfig heq).symm
      · intro hzero
        show writtenServerInfo r = _
        rw [show t.netConfig = SerConConfig.zero from hzero]
        rfl
    · obtain ⟨s', heq, hst, -⟩ := controlServerInfo_rejected t.sys hacc
      have ht' : { t with sys := s' } = t' := by
        cases RWriteInfo with
        | none => simpa [Tracked.Step, Tracked.write, heq] using h
        | some r =>
          have hr : ¬ r.num ≤ serverWriteNum := fun hr => hacc ⟨r, rfl, hr⟩
          simpa [Tracked.Step, Tracked.write, heq, hr] using h
      rw [← ht']
      unfold Tracked.Independent
      simp only [IndependenceOk, hacc, false_implies, true_and, not_false_eq_true, true_implies]
      rw [hst, ← hind]
      exact checked_eq_iff
  | netconfig RWriteInfo =>
    obtain ⟨s', heq, hst⟩ := controlServerInfo_writeNetconfig t.sys RWriteInfo
    have ht' : { t with sys := s', netConfig := RWriteInfo.netConfig } = t' := by
      simpa [Tracked.Step, Tracked.write, heq] using h
    refine iff_of_true ?_ trivial
    rw [← ht']
    unfold Tracked.Independent
    rw [hst, hind]

/-- In a run of writes, from any record, each half of the record stays what its
    own last accepted write gave exactly when every write meets
    `IndependenceOk`. -/
theorem independence_iff {s : ServerSystem} {tr : List (InfoWrite × Tracked)}
    (h : Path Tracked.Step (Tracked.start s) tr) :
    Always Tracked.Independent (Tracked.start s) tr ↔
      AllSteps IndependenceOk (Tracked.start s) tr :=
  h.always_iff (fun _ => True) _ (fun _ _ => trivial)
    (fun _ hind hs => step_independent_iff hind hs) trivial rfl

/-- A network configuration that is not cleared. -/
def wifiConfig : ServerNetInformation :=
  ⟨0, fun _ => NetInfo.zero, { SerConConfig.zero with configStyle := 2 }⟩

theorem step_netconfig (t : Tracked) (r : ServerNetInformation) :
    ∃ t', t.Step (.netconfig r) t' ∧
      t'.sys.stored = { t.sys.stored with netConfig := r.netConfig } ∧
      t'.netConfig = r.netConfig := by
  obtain ⟨s', heq, hst⟩ := controlServerInfo_writeNetconfig t.sys r
  refine ⟨{ t with sys := s', netConfig := r.netConfig }, ?_, hst, rfl⟩
  simp [Tracked.Step, Tracked.write, heq]

theorem step_server (t : Tracked) {r : ServerNetInformation} (hr : r.num ≤ serverWriteNum) :
    ∃ t', t.Step (.server (some r)) t' ∧ t'.sys.stored = writtenServerInfo r ∧
      t'.netConfig = t.netConfig := by
  obtain ⟨s', heq, hst, -⟩ := controlServerInfo_writeServer t.sys hr
  refine ⟨⟨s', (writtenServerInfo r).serverNetNum, (writtenServerInfo r).netInfo, t.netConfig⟩,
    ?_, hst, rfl⟩
  simp [Tracked.Step, Tracked.write, heq, hr]

theorem not_accepted_none : ¬ Accepted none := by
  rintro ⟨r, hr, -⟩
  contradiction

theorem step_server_null (t : Tracked) : ∃ t', t.Step (.server none) t' := by
  obtain ⟨s', heq, -, -⟩ := controlServerInfo_rejected t.sys not_accepted_none
  exact ⟨{ t with sys := s' }, by simp [Tracked.Step, Tracked.write, heq]⟩

/-- An erased flash. -/
def blankSystem : ServerSystem := ⟨fun _ => 0xFF, 0, none⟩

/-- A list of one server, and no network configuration. -/
def oneServer : ServerNetInformation := ⟨1, fun _ => defaultNetInfo, SerConConfig.zero⟩

/-- The network configuration is cleared, a list of one server is written, then
    another configuration, and a null list is rejected: both halves are what
    their own last accepted writes gave. -/
theorem independence_cleared_first : ∃ tr, Path Tracked.Step (Tracked.start blankSystem) tr ∧
    tr.map Prod.fst = [.netconfig oneServer, .server (some oneServer), .netconfig wifiConfig,
      .server none] ∧
    Always Tracked.Independent (Tracked.start blankSystem) tr := by
  obtain ⟨a, ha, hsa, -⟩ := step_netconfig (Tracked.start blankSystem) oneServer
  obtain ⟨b, hb, hsb, -⟩ := step_server a (r := oneServer) (by decide)
  obtain ⟨c, hc, hsc, -⟩ := step_netconfig b wifiConfig
  obtain ⟨d, hd⟩ := step_server_null c
  have hok : IndependenceOk a (.server (some oneServer)) := by
    constructor
    · intro _
      rw [hsa]
      rfl
    · intro hrejected
      exact absurd ⟨oneServer, rfl, by decide⟩ hrejected
  have hok' : IndependenceOk c (.server none) := by
    constructor
    · intro haccepted
      exact absurd haccepted not_accepted_none
    · intro _
      rw [hsc, hsb]
      decide
  exact ⟨_, .cons ha (.cons hb (.cons hc (.cons hd (.nil d)))), rfl,
    (independence_iff (.cons ha (.cons hb (.cons hc (.cons hd (.nil d)))))).2
      ⟨trivial, hok, trivial, hok', trivial⟩⟩

/-- The network configuration is written, then a list of one server: the
    configuration is gone. -/
theorem netConfig_lost : ∃ tr, Path Tracked.Step (Tracked.start blankSystem) tr ∧
    tr.map Prod.fst = [.netconfig wifiConfig, .server (some oneServer)] ∧
    ¬ Always Tracked.Independent (Tracked.start blankSystem) tr := by
  obtain ⟨t, ht, -, hnet⟩ := step_netconfig (Tracked.start blankSystem) wifiConfig
  obtain ⟨u, hu, hst, hexpect⟩ := step_server t (r := oneServer) (by decide)
  refine ⟨_, .cons ht (.cons hu (.nil u)), rfl, fun halways => ?_⟩
  have hlast : u.Independent := halways.2.2
  unfold Tracked.Independent at hlast
  rw [hst, hexpect, hnet] at hlast
  have hne : SerConConfig.zero ≠ wifiConfig.netConfig := by decide
  exact hne (congrArg ServerNetInformation.netConfig hlast)

end Abox.Config
