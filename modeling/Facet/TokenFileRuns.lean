import Facet.VaultRenewal

/-!
# The token file and the loop

A sidecar rewrites the token file. The watcher of its directory puts events into a channel that
holds a hundred of them, and the file-based trigger takes them out. An event that the loop has
handled is kept with the file of that moment and the error recorded for it.
-/
namespace Facet.Vault.TokenFileRuns
open TokenRenewer

inductive EventKind
  | any
  | access
  | create
  | modify
  | remove
  | other
  deriving DecidableEq, Repr

def fires : EventKind → Bool
  | .modify => true
  | .create => true
  | .remove => true
  | _ => false

/-- `mpsc::channel(100)`. -/
def channelSize : ℕ := 100

structure Handled where
  file : TokenFile
  error : Option String
  deriving DecidableEq, Repr

structure State where
  loop : TokenRenewer.State
  file : TokenFile
  channel : List (Except String EventKind)
  closed : Bool
  handled : Option Handled

inductive Label
  | rewrite (file : TokenFile)
  | notify (event : Except String EventKind)
  | close
  | receive
  | check
  | shutdown (signal : Bool)
  | response (send : HttpRequest → Except String HttpResponse)
  | authenticate
  | tick (later : ℤ)
  | abort

/-- The loop has moved on; back at its top it has handled the event. -/
def State.settle (s : State) (loop : TokenRenewer.State) : State :=
  { s with
    loop := loop
    handled := if loop.phase = .top then some ⟨s.file, loop.client.lastError⟩ else s.handled }

section Model
variable (r : TokenRenewer TokenFile)

/-- `recv` in `wait_for_trigger`. -/
def receive (s : State) : Option State :=
  match s.channel with
  | .ok kind :: channel =>
    if fires kind then (next r s.loop (.trigger (.ok ()))).map fun loop => { s with loop, channel }
    else some { s with channel }
  | .error e :: channel =>
    (next r s.loop (.trigger (.error (.tokenFileReadError ("File watch error: " ++ e))))).map
        fun loop =>
      { s with loop, channel }
  | [] =>
    if s.closed then
      (next r s.loop (.trigger (.error (.tokenFileReadError "File watcher channel closed")))).map
          fun loop =>
        { s with loop }
    else none

def step (s : State) : Label → Option State
  | .rewrite file => some { s with file }
  | .notify event =>
    if s.channel.length < channelSize then
      some { s with channel := s.channel ++ [event] }
    else some s
  | .close => some { s with closed := true }
  | .receive =>
    match s.loop.phase with
    | .waiting _ _ => receive r s
    | _ => none
  | .check => (next r s.loop .check).map fun loop => { s with loop }
  | .shutdown signal => (next r s.loop (.shutdown signal)).map fun loop => { s with loop }
  | .response send => (next r s.loop (.response send)).map s.settle
  | .authenticate => (next r s.loop (.authenticate s.file)).map s.settle
  | .tick later => (next r s.loop (.tick later)).map fun loop => { s with loop }
  | .abort => (next r s.loop .abort).map fun loop => { s with loop }

def machine : Machine State Label where
  init s := Started s.loop ∧ s.channel = [] ∧ s.closed = false ∧ s.handled = none
  next := step r

end Model

/-- The renewer of a service account. -/
def fileRenewer (client : FileBasedVaultAuthClient) (vaultUrl : String)
    (maxConsecutiveFailures : UInt32) : TokenRenewer TokenFile :=
  ⟨client.authenticate, vaultUrl, maxConsecutiveFailures⟩

/-! ## The loop of a run -/

variable {r : TokenRenewer TokenFile} {s t : State}

/-- Each step is one of the loop, or the loop does not see it. -/
theorem loop_of_step {l : Label} (hn : step r s l = some t) :
    t.loop = s.loop ∨ ∃ k, next r s.loop k = some t.loop := by
  cases l with
  | rewrite file => exact Or.inl (Option.some.inj hn ▸ rfl)
  | notify event =>
    simp only [step] at hn
    split_ifs at hn
    · exact Or.inl (Option.some.inj hn ▸ rfl)
    · exact Or.inl (Option.some.inj hn ▸ rfl)
  | close => exact Or.inl (Option.some.inj hn ▸ rfl)
  | receive =>
    simp only [step] at hn
    split at hn
    · unfold receive at hn
      split at hn
      · split_ifs at hn
        · obtain ⟨loop, hloop, rfl⟩ := Option.map_eq_some_iff.mp hn
          exact Or.inr ⟨_, hloop⟩
        · exact Or.inl (Option.some.inj hn ▸ rfl)
      · obtain ⟨loop, hloop, rfl⟩ := Option.map_eq_some_iff.mp hn
        exact Or.inr ⟨_, hloop⟩
      · split_ifs at hn
        obtain ⟨loop, hloop, rfl⟩ := Option.map_eq_some_iff.mp hn
        exact Or.inr ⟨_, hloop⟩
    · exact absurd hn (by simp)
  | _ =>
    simp only [step, Option.map_eq_some_iff] at hn
    obtain ⟨loop, hloop, rfl⟩ := hn
    exact Or.inr ⟨_, hloop⟩

theorem refines_renewalLoop (r : TokenRenewer TokenFile) :
    Machine.Refines (machine r) (renewalLoop r) State.loop where
  init _ hinit := hinit.1
  step _ _ _ hn := loop_of_step hn

/-! ## What an event has led to -/

/-- The token is the trimmed text of the file. -/
def HeldBy (file : TokenFile) (token : String) : Prop :=
  ∃ content, file = .text content ∧ token = trim content

/-- After an event without an error the client holds the token that the file had. -/
def FollowsFile (s : State) : Prop := ∀ file, s.handled = some ⟨file, none⟩ →
    HeldBy file s.loop.client.token

/-- Vault renews the held token only while the file still has it. -/
def RenewedInFile (r : TokenRenewer TokenFile) (s : State) (l : Label) (_ : State) : Prop :=
  ∀ send token leaseDuration, l = .response send → s.loop.phase = .renewing token leaseDuration →
    r.renewToken send token leaseDuration = .ok () → HeldBy s.file s.loop.client.token

theorem followsFile_settle {loop : TokenRenewer.State} :
    FollowsFile (s.settle loop) ↔
      if loop.phase = .top then loop.client.lastError = none → HeldBy s.file loop.client.token
      else ∀ file, s.handled = some ⟨file, none⟩ → HeldBy file loop.client.token := by
  unfold FollowsFile State.settle
  split_ifs with htop
  · constructor
    · intro hfollows hnone
      exact hfollows s.file (by rw [hnone])
    · intro hheld file hfile
      simp only [Option.some.injEq, Handled.mk.injEq] at hfile
      obtain ⟨rfl, hnone⟩ := hfile
      exact hheld hnone
  · rfl

theorem FollowsFile.keep (h : FollowsFile s) (hhandled : t.handled = s.handled)
    (htoken : t.loop.client.token = s.loop.client.token) : FollowsFile t := by
  intro file hfile
  rw [htoken]
  exact h file (hhandled ▸ hfile)

theorem token_of_next {ε : Type} {r : TokenRenewer ε} {a b : TokenRenewer.State}
    {l : TokenRenewer.Label ε} (hl : ∀ env, l ≠ .authenticate env) (hn : next r a l = some b) :
    b.client.token = a.client.token := by
  cases effect_of_next hn with
  | replaced authenticating ok => exact absurd rfl (hl _)
  | _ => rfl

theorem kept_of_step {l : Label} (hresponse : ∀ send, l ≠ .response send)
    (hauthenticate : l ≠ .authenticate) (hn : step r s l = some t) :
    t.handled = s.handled ∧ t.loop.client.token = s.loop.client.token := by
  cases l with
  | rewrite file =>
    obtain rfl := Option.some.inj hn
    exact ⟨rfl, rfl⟩
  | notify event =>
    simp only [step] at hn
    split_ifs at hn
    · obtain rfl := Option.some.inj hn
      exact ⟨rfl, rfl⟩
    · obtain rfl := Option.some.inj hn
      exact ⟨rfl, rfl⟩
  | close =>
    obtain rfl := Option.some.inj hn
    exact ⟨rfl, rfl⟩
  | receive =>
    simp only [step] at hn
    split at hn
    · unfold receive at hn
      split at hn
      · split_ifs at hn
        · obtain ⟨loop, hloop, rfl⟩ := Option.map_eq_some_iff.mp hn
          exact ⟨rfl, token_of_next (by simp) hloop⟩
        · obtain rfl := Option.some.inj hn
          exact ⟨rfl, rfl⟩
      · obtain ⟨loop, hloop, rfl⟩ := Option.map_eq_some_iff.mp hn
        exact ⟨rfl, token_of_next (by simp) hloop⟩
      · split_ifs at hn
        obtain ⟨loop, hloop, rfl⟩ := Option.map_eq_some_iff.mp hn
        exact ⟨rfl, token_of_next (by simp) hloop⟩
    · exact absurd hn (by simp)
  | response send => exact absurd rfl (hresponse send)
  | authenticate => exact absurd rfl hauthenticate
  | _ =>
    simp only [step, Option.map_eq_some_iff] at hn
    obtain ⟨loop, hloop, rfl⟩ := hn
    exact ⟨rfl, token_of_next (by simp) hloop⟩

section File
variable {client : FileBasedVaultAuthClient} {vaultUrl : String} {maxConsecutiveFailures : UInt32}

theorem followsFile_response {r : TokenRenewer TokenFile}
    {send : HttpRequest → Except String HttpResponse} (h : FollowsFile s)
    (hn : step r s (.response send) = some t) :
    FollowsFile t ↔ RenewedInFile r s (.response send) t := by
  simp only [step, Option.map_eq_some_iff] at hn
  obtain ⟨loop, hloop, rfl⟩ := hn
  simp only [next] at hloop
  split at hloop
  · rename_i token leaseDuration hrenewing
    have hrenewed : RenewedInFile r s (.response send) (s.settle loop) ↔
        (r.renewToken send token leaseDuration = .ok () → HeldBy s.file s.loop.client.token) := by
      constructor
      · intro hall
        exact hall send token leaseDuration rfl hrenewing
      · intro hone send' token' leaseDuration' hlabel hphase
        obtain rfl := Label.response.inj hlabel
        obtain ⟨rfl, rfl⟩ := Phase.renewing.inj (hrenewing.symm.trans hphase)
        exact hone
    rw [hrenewed]
    cases hresult : r.renewToken send token leaseDuration with
    | ok u =>
      simp only [hresult, Option.some.injEq] at hloop
      subst hloop
      simp [followsFile_settle, VaultClientState.updateOnSuccess]
    | error e =>
      refine iff_of_true ?_ (by simp)
      simp only [hresult] at hloop
      split_ifs at hloop with hauth
      · obtain rfl := Option.some.inj hloop
        exact followsFile_settle.mpr (by simpa [FollowsFile] using h)
      · obtain rfl := Option.some.inj hloop
        exact followsFile_settle.mpr (by simp [VaultClientState.recordRenewalError])
  · exact absurd hloop (by simp)

theorem followsFile_authenticate
    (hn : step (fileRenewer client vaultUrl maxConsecutiveFailures) s .authenticate = some t) :
    FollowsFile t := by
  simp only [step, Option.map_eq_some_iff] at hn
  obtain ⟨loop, hloop, rfl⟩ := hn
  simp only [next] at hloop
  split at hloop
  · cases hresult : (fileRenewer client vaultUrl maxConsecutiveFailures).authenticate s.file with
    | ok auth =>
      simp only [hresult, Option.some.injEq] at hloop
      subst hloop
      obtain ⟨content, hfile, rfl, -⟩ := FileBasedVaultAuthClient.authenticate_eq_ok.mp hresult
      exact followsFile_settle.mpr (by simp [VaultClientState.replaceToken, HeldBy, hfile])
    | error e =>
      simp only [hresult, Option.some.injEq] at hloop
      subst hloop
      exact followsFile_settle.mpr (by simp [VaultClientState.recordRenewalError])
  · exact absurd hloop (by simp)

theorem followsFile_step {l : Label} (h : FollowsFile s)
    (hn : step (fileRenewer client vaultUrl maxConsecutiveFailures) s l = some t) :
    FollowsFile t ↔ RenewedInFile (fileRenewer client vaultUrl maxConsecutiveFailures) s l t := by
  cases l with
  | response send => exact followsFile_response h hn
  | authenticate => exact iff_of_true (followsFile_authenticate hn) (by simp [RenewedInFile])
  | _ =>
    obtain ⟨hhandled, htoken⟩ := kept_of_step (by simp) (by simp) hn
    exact iff_of_true (h.keep hhandled htoken) (by simp [RenewedInFile])

/-- The client follows the file in every run in which Vault renews a token only while the file has
it, and a step in which Vault renews another one leaves it behind. -/
theorem token_follows_file {s : State}
    (hreach : (machine (fileRenewer client vaultUrl maxConsecutiveFailures)).Reach
      (RenewedInFile (fileRenewer client vaultUrl maxConsecutiveFailures)) s) :
    FollowsFile s ∧ ∀ l t, step (fileRenewer client vaultUrl maxConsecutiveFailures) s l = some t →
      (FollowsFile t ↔
        RenewedInFile (fileRenewer client vaultUrl maxConsecutiveFailures) s l t) := by
  have hfollows : FollowsFile s := by
    refine hreach.invariant (P := FollowsFile) ?_ fun a l b ha hn hok =>
      (followsFile_step ha hn).mpr hok
    intro s hinit
    simp [FollowsFile, hinit.2.2.2]
  exact ⟨hfollows, fun l t hn => followsFile_step hfollows hn⟩

end File

/-- The bookkeeping of the loop, whatever happens to the file. -/
theorem loop_bookkept (hreach : (machine r).Reach Machine.Any s) : Bookkept r s.loop :=
  (inv_of_reach ((refines_renewalLoop r).reach hreach)).toBookkept

/-! ## A rotation that is not noticed -/

def agentClient : FileBasedVaultAuthClient := { tokenFilePath := "/vault/token" }

def rotated : List Label :=
  [.rewrite (.text "hvs.2"), .notify (.ok .modify), .check, .receive,
    .response fun _ => .ok { status := 200, statusText := "200 OK", text := none }]

def agentStart : State where
  loop := ⟨.top,
    { token := "hvs.1", lastCreated := 0, leaseDuration := 3600, healthThreshold := 3 }, 0, []⟩
  file := .text "hvs.1"
  channel := []
  closed := false
  handled := none

def rotatedState : State :=
  (machine (fileRenewer agentClient "http://vault:8200" 10)).final
    (fun _ _ _ => true) agentStart rotated

theorem agentStart_init : (machine (fileRenewer agentClient "http://vault:8200"
    10)).init agentStart :=
  ⟨⟨rfl, rfl, "hvs.1", 3600, 3, 0, le_rfl, rfl⟩, rfl, rfl, rfl⟩

/-- Vault renews the superseded token, and the file is not read. -/
theorem superseded_token_kept : ¬∀ (client : FileBasedVaultAuthClient) (vaultUrl : String)
    (maxConsecutiveFailures : UInt32) (s : State),
    (machine (fileRenewer client vaultUrl maxConsecutiveFailures)).Reach Machine.Any s →
      FollowsFile s := by
  intro hall
  have hpath : (machine
      (fileRenewer agentClient "http://vault:8200" 10)).Path Machine.Any agentStart rotated
      rotatedState := Machine.path_final (fun _ _ _ _ => trivial) (by decide)
  have hfollows := hall agentClient "http://vault:8200" 10
    rotatedState ⟨agentStart, rotated, agentStart_init, hpath⟩
  obtain ⟨content, hfile, htoken⟩ := hfollows (.text "hvs.2") (by decide)
  obtain rfl := TokenFile.text.inj hfile
  exact absurd htoken (by decide)

/-- Vault renews nothing. -/
def refusedCheck (r : TokenRenewer TokenFile) (s : State) (l : Label) (_ : State) : Bool :=
  match l, s.loop.phase with
  | .response send, .renewing token leaseDuration =>
    match r.renewToken send token leaseDuration with
    | .ok _ => false
    | .error _ => true
  | _, _ => true

theorem renewedInFile_of_refused {r : TokenRenewer TokenFile} (s : State) (l : Label) (t : State)
    (hcheck : refusedCheck r s l t = true) : RenewedInFile r s l t := by
  rintro send token leaseDuration rfl hphase hresult
  exact absurd hcheck (by simp [refusedCheck, hphase, hresult])

def refused : List Label :=
  [.rewrite (.text "hvs.2\n"), .notify (.ok .modify), .check, .receive,
    .response fun _ =>
      .ok { status := 403, statusText := "403 Forbidden", text := some "permission denied" },
    .authenticate]

def refusedState : State :=
  (machine (fileRenewer agentClient "http://vault:8200" 10)).final
    (refusedCheck (fileRenewer agentClient "http://vault:8200" 10)) agentStart refused

theorem refused_token_replaced :
    FollowsFile refusedState ∧ refusedState.loop.client.token = "hvs.2" := by
  have hpath : (machine (fileRenewer agentClient "http://vault:8200" 10)).Path
      (RenewedInFile
        (fileRenewer agentClient "http://vault:8200" 10)) agentStart refused refusedState :=
    Machine.path_final renewedInFile_of_refused (by decide)
  exact ⟨(token_follows_file ⟨agentStart, refused, agentStart_init, hpath⟩).1, by decide⟩

end Facet.Vault.TokenFileRuns
