import PahoClient.Properties.Termination
import PahoClient.Transition.Product

/-!
# Several clients in one process

The objects of class `MQTTClient` in one process share the library, which runs
the callbacks of all of them on one thread.  A completion of one client then
waits for a callback of another, but never forever.
-/

namespace PahoClient

open PahoClient.Transition

/-- The clients of a process. -/
abbrev ClientId (n : Nat) := Fin n

/-- The library enters a callback when no client has one running. -/
def processStep {n : Nat} (programs : ClientId n → Program) :
    Step (ClientId n → State) (ClientId n × Label) :=
  product (fun k => step (programs k)) fun whole _ label =>
    !label.entersCallback || decide (∀ j, (whole j).active = [])

/-- Clients that no thread has used yet. -/
def novos {n : Nat} (callbackMaps : ClientId n → CallbackMap) (conectados : ClientId n → Bool) :
    ClientId n → State :=
  fun k => initial (callbackMaps k) (conectados k)

/-- Something that has begun at some client can go on. -/
def ProcessAdvances {n : Nat} (programs : ClientId n → Program) (whole : ClientId n → State) :
    Prop :=
  ∃ k label whole', label.advances = true ∧
    processStep programs whole (k, label) = some whole'

section Process

variable {n : Nat} {programs : ClientId n → Program} {start whole whole' : ClientId n → State}
  {history : List (Event (ClientId n → State) (ClientId n × Label))}

/-- For each client by itself the library runs one callback at a time. -/
theorem serial_of_process (run : Run (processStep programs) start history whole)
    (k : ClientId n) : Run (serialStep (programs k)) (start k) (project k history) (whole k) := by
  refine run.project (fun k => serialStep (programs k)) ?_ k
  intro before i label target permitted executed
  unfold serialStep
  by_cases enters : label.entersCallback = true
  · have empty : (before i).active = [] := by
      simp only [enters, Bool.not_true, Bool.false_or, decide_eq_true_eq] at permitted
      exact permitted i
    simp [empty, executed]
  · simp [enters, executed]

theorem lockInv_of_process {callbackMaps : ClientId n → CallbackMap}
    {conectados : ClientId n → Bool}
    (run : Run (processStep programs) (novos callbackMaps conectados) history whole)
    (k : ClientId n) : LockInv (programs k) (whole k) :=
  lockInv_of_run (serial_of_process run k)

/-- A step of one client is a step of the process unless another client's
callback keeps the library from entering one. -/
theorem processAdvances_of_step {k : ClientId n} {label : Label} {target : State}
    (advances : label.advances = true)
    (executed : serialStep (programs k) (whole k) label = some target)
    (free : label.entersCallback = true → ∀ j, (whole j).active = []) :
    ProcessAdvances programs whole := by
  refine ⟨k, label, Function.update whole k target, advances, ?_⟩
  apply product_eq_some_iff.mpr
  refine ⟨?_, target, step_of_serialStep executed, rfl⟩
  by_cases enters : label.entersCallback = true
  · simpa [enters] using free enters
  · simp [enters]

/-- While a client runs a callback, the library enters no other. -/
theorem not_enters_of_active {program : Program} {s t : State} {label : Label}
    (busy : s.active ≠ []) (executed : serialStep program s label = some t) :
    label.entersCallback = false := by
  unfold serialStep at executed
  split at executed
  · cases executed
  · rename_i allowed
    simpa [busy] using allowed

/-- The callback that a client runs can go on, or waits for something of the
same client that can. -/
theorem LockInv.advances_of_active {program : Program} {s : State} (inv : LockInv program s)
    (busy : s.active ≠ []) : Advances program s := by
  obtain ⟨agent, member⟩ := List.exists_mem_of_ne_nil _ busy
  have runs := inv.running agent member
  cases agent with
  | call c => exact runs.elim
  | handler c =>
      obtain ⟨res, pc, running⟩ := runs
      exact inv.advances_of_running running
  | message m => exact inv.advances_of_message runs

/-- A process in which one client can go on can go on: at that client, or at the
client whose callback the library is running. -/
theorem processAdvances (inv : ∀ k, LockInv (programs k) (whole k)) {k : ClientId n}
    (goes : Advances (programs k) (whole k)) : ProcessAdvances programs whole := by
  by_cases idle : ∀ j, (whole j).active = []
  · obtain ⟨label, target, advances, executed⟩ := goes
    exact processAdvances_of_step advances executed fun _ => idle
  · push Not at idle
    obtain ⟨j, busy⟩ := idle
    obtain ⟨label, target, advances, executed⟩ := (inv j).advances_of_active busy
    apply processAdvances_of_step advances executed
    intro enters
    rw [not_enters_of_active busy executed] at enters
    cases enters

/-- The statements of a history of the process. -/
def avancosDoProcesso (history : List (Event (ClientId n → State) (ClientId n × Label))) : Nat :=
  history.countP fun event => event.label.2.advances

theorem avancosDoProcesso_le {callbackMaps : ClientId n → CallbackMap}
    {conectados : ClientId n → Bool}
    (run : Run (processStep programs) (novos callbackMaps conectados) history whole) :
    avancosDoProcesso history ≤ ∑ k, limite (programs k) (project k history) := by
  rw [avancosDoProcesso, countP_eq_sum_project]
  apply Finset.sum_le_sum
  intro k _
  exact avancos_le_limite (serial_of_process run k)

end Process

/-- No process of any number of clients deadlocks or runs on without end: once
no call starts, no message arrives and no wake-up is spurious, the statements
still to come are bounded by what the past has left over, and nothing stops
before every client has settled.  The application callbacks return without
calling a client. -/
theorem process_settles {n : Nat} (programs : ClientId n → Program)
    (callbackMaps : ClientId n → CallbackMap) (conectados : ClientId n → Bool)
    {history : List (Event (ClientId n → State) (ClientId n × Label))}
    {whole : ClientId n → State}
    (run : Run (processStep programs) (novos callbackMaps conectados) history whole) :
    (∀ later whole', Run (processStep programs) whole later whole' →
      (∀ event ∈ later, event.label.2.quieto = true) →
        avancosDoProcesso later + avancosDoProcesso history ≤
            ∑ k, limite (programs k) (project k history) ∧
          ((∀ k, Assentado (whole' k)) ∨ ProcessAdvances programs whole')) ∧
    ∃ later whole', Run (processStep programs) whole later whole' ∧
      (∀ event ∈ later, event.label.2.advances = true) ∧ ∀ k, Assentado (whole' k) := by
  have bounded : ∀ later whole', Run (processStep programs) whole later whole' →
      (∀ event ∈ later, event.label.2.quieto = true) →
        avancosDoProcesso later + avancosDoProcesso history ≤
          ∑ k, limite (programs k) (project k history) := by
    intro later whole' continued quiet
    have sum := avancosDoProcesso_le (run.trans continued)
    rw [avancosDoProcesso, List.countP_append] at sum
    refine le_trans sum (le_of_eq (Finset.sum_congr rfl fun k _ => ?_))
    rw [project_append]
    apply limite_append_quieto
    intro event member
    obtain ⟨wholeEvent, inside, label⟩ := mem_project member
    have quieto := quiet wholeEvent inside
    rwa [label] at quieto
  have settled : ∀ later whole', Run (processStep programs) whole later whole' →
      (∀ k, Assentado (whole' k)) ∨ ProcessAdvances programs whole' := by
    intro later whole' continued
    have inv := lockInv_of_process (run.trans continued)
    by_cases goes : ∃ k, Advances (programs k) (whole' k)
    · obtain ⟨k, goes⟩ := goes
      exact Or.inr (processAdvances inv goes)
    · push Not at goes
      exact Or.inl fun k => (inv k).assentado (goes k)
  constructor
  · intro later whole' continued quiet
    exact ⟨bounded later whole' continued quiet, settled later whole' continued⟩
  · obtain ⟨later, whole', continued, advancing, stuck⟩ :=
      exists_maximal (fun label : ClientId n × Label => label.2.advances)
        (∑ k, limite (programs k) (project k history)) fun later whole' continued advancing => by
          have short := bounded later whole' continued fun event member =>
            quieto_of_advances (advancing event member)
          have all : avancosDoProcesso later = later.length :=
            List.countP_eq_length.mpr advancing
          omega
    refine ⟨later, whole', continued, advancing, ?_⟩
    refine (settled later whole' continued).resolve_right ?_
    rintro ⟨k, label, target, advances, executed⟩
    rw [stuck (k, label) advances] at executed
    cases executed

/-- Two clients: the first connects, and a message reaches the second. -/
def programasEmProcesso : ClientId 2 → Program
  | 0 => ⟨fun _ => .conectar, fun _ => []⟩
  | 1 => ⟨fun _ => .desconectar, fun _ => [97]⟩

/-- The completion of the first client is ready while the library runs the
callback of the second. -/
theorem process_settles_across_clients :
    ∃ history whole, Run (processStep programasEmProcesso)
        (novos (fun _ _ => none) fun _ => false) history whole ∧
      serialStep (programasEmProcesso 0) (whole 0) (.deliver 0) ≠ none ∧
      processStep programasEmProcesso whole (0, .deliver 0) = none ∧
      ∃ later whole', Run (processStep programasEmProcesso) whole later whole' ∧
        (∀ event ∈ later, event.label.2.advances = true) ∧ ∀ k, Assentado (whole' k) := by
  obtain ⟨whole, run, view⟩ := exists_run_of_execute (processStep programasEmProcesso)
    (novos (fun _ _ => none) fun _ => false)
    [(0, .start 0), (0, .call 0 0), (0, .call 0 0), (0, .call 0 0), (0, .call 0 0),
      (0, .complete 0 (.onFailure none)), (1, .arrive 0)]
    (fun whole => ((whole 0).request 0, (whole 0).active, (whole 1).active))
    (.ready (.onFailure none), [], [.message 0]) (by decide)
  simp only [Prod.mk.injEq] at view
  obtain ⟨ready, idle, busy⟩ := view
  refine ⟨_, whole, run, ?_, ?_, (process_settles programasEmProcesso _ _ run).2⟩
  · simp [serialStep, idle, step, ready]
  · unfold processStep product
    rw [if_neg]
    simp only [Label.entersCallback, Bool.not_true, Bool.false_or, decide_eq_true_eq]
    intro all
    rw [all 1] at busy
    cases busy

end PahoClient
