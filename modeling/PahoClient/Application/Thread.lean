import PahoClient.Application.MqttTest

/-!
# The calls of the thread of `mqtt-test`

Seen from the client the thread is one that makes its calls in order, each after
the one before has returned.  A run of the process is therefore a run of the
client in which at most one call is in progress.
-/

namespace PahoClient.MqttTest

open PahoClient.Transition

/-! ## The steps of the thread -/

/-- What the thread can do in one step. -/
inductive Passo (mensagens : Mensagens) (p : Processo) : Processo → Prop
  | testa {codigo : Int} : p.principal = .destrutor codigo →
      Passo mensagens p { p with
        principal := if p.client.conectado then .desconectando codigo else .destruir codigo }
  | destroi {codigo : Int} : p.principal = .destruir codigo →
      Passo mensagens p { p with principal := .fim codigo }
  | chama {c : CallId} : p.principal.chamada = some c → p.client.pc c = .idle →
      Passo mensagens p { p with client := p.client.setPc c (entry ((programa mensagens).op c)) }
  | retorna {c : CallId} {res : Bool} : p.principal.chamada = some c →
      p.client.pc c = .returned res →
      Passo mensagens p { p with
        principal := p.principal.apos res
        cerr := p.principal.erro res ++ p.cerr }

section Steps

variable {mensagens : Mensagens} {p q : Processo} {label : Label}

theorem proximo_of_chamada {c : CallId} (calls : p.principal.chamada = some c) :
    proximo mensagens p =
      match p.client.pc c with
      | .idle =>
          (step (programa mensagens) p.client (.start c)).map fun client =>
            { p with client := client }
      | .returned res =>
          some { p with
            principal := p.principal.apos res
            cerr := p.principal.erro res ++ p.cerr }
      | _ => none := by
  unfold proximo
  cases principal : p.principal with
  | destrutor codigo | destruir codigo | fim codigo =>
      rw [principal] at calls
      cases calls
  | conectar i | subscribe i | unsubscribe i | desconectar i | desconectando codigo =>
      rw [principal] at calls
      cases calls
      rfl

theorem passo_of_proximo (executed : proximo mensagens p = some q) : Passo mensagens p q := by
  cases calls : p.principal.chamada with
  | none =>
      cases principal : p.principal with
      | destrutor codigo =>
          simp only [proximo, principal] at executed
          cases executed
          exact .testa principal
      | destruir codigo =>
          simp only [proximo, principal] at executed
          cases executed
          exact .destroi principal
      | fim codigo =>
          simp only [proximo, principal] at executed
          cases executed
      | conectar i | subscribe i | unsubscribe i | desconectar i | desconectando codigo =>
          rw [principal] at calls
          cases calls
  | some c =>
      rw [proximo_of_chamada calls] at executed
      cases pc : p.client.pc c with
      | idle =>
          simp only [pc, step, goto, if_true, Option.map_some] at executed
          cases executed
          exact .chama calls pc
      | returned res =>
          simp only [pc] at executed
          cases executed
          exact .retorna calls pc
      | _ =>
          simp only [pc] at executed
          cases executed

/-- A step of the client is one that the process permits. -/
theorem processo_cliente (executed : processo mensagens p (.cliente label) = some q) :
    permitido label = true ∧ ∃ client,
      serialStep (programa mensagens) p.client label = some client ∧
        q = { p with client := client, cout := escreve mensagens p.client label ++ p.cout } := by
  simp only [processo] at executed
  split at executed
  · rename_i permitted
    obtain ⟨client, step, rfl⟩ := Option.map_eq_some_iff.mp executed
    exact ⟨permitted, client, step, rfl⟩
  · cases executed

end Steps

/-! ## The client below the thread -/

/-- The client sees the thread start its calls. -/
def visto : View Processo Rotulo Label
  | p, .principal =>
      match p.principal.chamada with
      | some c => if p.client.pc c = .idle then some (.start c) else none
      | none => none
  | _, .cliente label => some label

theorem simula (mensagens : Mensagens) :
    Simulates (processo mensagens) (serialStep (programa mensagens)) visto
      (fun p client => p.client = client) where
  silent := by
    rintro p q _ label rfl executed hidden
    cases label with
    | cliente label => cases hidden
    | principal =>
        cases passo_of_proximo executed with
        | testa | destroi | retorna => rfl
        | chama calls idle => simp [visto, calls, idle] at hidden
  visible := by
    rintro p q _ label seen rfl executed view
    cases label with
    | cliente label =>
        cases view
        obtain ⟨_, client, step, rfl⟩ := processo_cliente executed
        exact ⟨client, step, rfl⟩
    | principal =>
        cases passo_of_proximo executed with
        | testa principal => simp [visto, principal, Principal.chamada] at view
        | destroi principal => simp [visto, principal, Principal.chamada] at view
        | retorna calls returned => simp [visto, calls, returned] at view
        | chama calls idle =>
            simp only [visto, calls, idle, if_true] at view
            cases view
            refine ⟨_, ?_, rfl⟩
            simp [serialStep, Label.entersCallback, step, idle, goto]

section Runs

variable {mensagens : Mensagens} {p q : Processo} {history : List (Event Processo Rotulo)}

/-- A run of the process is seen as a run of its client. -/
theorem cliente_of_run (run : Run (processo mensagens) inicio history p) :
    ∃ clientHistory, Run (serialStep (programa mensagens)) (initial (fun _ => none) false)
        clientHistory p.client ∧
      clientHistory.map Event.label = seenOf visto history := by
  obtain ⟨clientHistory, client, clientRun, rfl, labels⟩ := (simula mensagens).run run rfl
  exact ⟨clientHistory, clientRun, labels⟩

theorem lockInv_of_processo (run : Run (processo mensagens) inicio history p) :
    LockInv (programa mensagens) p.client := by
  obtain ⟨_, clientRun, _⟩ := cliente_of_run run
  exact lockInv_of_run clientRun

end Runs

/-! ## One call after another -/

/-- The rounds are counted from zero. -/
def Principal.valida : Principal → Prop
  | conectar i | subscribe i | unsubscribe i | desconectar i => i < rodadas
  | destrutor _ | desconectando _ | destruir _ | fim _ => True

/-- The calls from this one on have not been made. -/
def Principal.usadas : Principal → Nat
  | conectar i => 4 * i + 1
  | subscribe i => 4 * i + 2
  | unsubscribe i => 4 * i + 3
  | desconectar i => 4 * i + 4
  | destrutor _ => 4 * rodadas
  | desconectando _ | destruir _ | fim _ => 4 * rodadas + 4

/-- At most the call of the current statement is in progress, and the calls
after it have not been made. -/
structure Ordem (p : Processo) : Prop where
  valida : p.principal.valida
  atual : ∀ c, (p.client.pc c).inProgress = true → p.principal.chamada = some c
  futura : ∀ c, p.principal.usadas ≤ c → p.client.pc c = .idle

section Order

variable {mensagens : Mensagens} {p q : Processo} {label : Label}
  {history : List (Event Processo Rotulo)}

theorem usadas_of_chamada {principal : Principal} {c : CallId}
    (calls : principal.chamada = some c) : principal.usadas = c + 1 := by
  cases principal <;> cases calls <;> rfl

/-- The statement after a call comes later, and its own call has not been
made. -/
theorem usadas_apos {principal : Principal} (valida : principal.valida) (res : Bool) :
    (principal.apos res).valida ∧ principal.usadas ≤ (principal.apos res).usadas ∧
      ∀ c, (principal.apos res).chamada = some c → principal.usadas ≤ c := by
  cases principal with
  | conectar i | subscribe i | unsubscribe i =>
      simp only [Principal.valida] at valida
      cases res <;> simp [Principal.apos, Principal.valida, Principal.usadas, Principal.chamada] <;>
        omega
  | desconectar i =>
      simp only [Principal.valida] at valida
      by_cases again : i + 1 < rodadas
      · simp [Principal.apos, again, Principal.valida, Principal.usadas, Principal.chamada]
        omega
      · simp [Principal.apos, again, Principal.valida, Principal.usadas, Principal.chamada]
        omega
  | destrutor codigo | desconectando codigo | destruir codigo | fim codigo =>
      cases res <;> simp [Principal.apos, Principal.valida, Principal.usadas, Principal.chamada]

/-- Without starting a call the client changes the position of a call in
progress only. -/
theorem pc_of_permitido {program : Program} {s t : State} (permitted : permitido label = true)
    (executed : step program s label = some t) (c : CallId) :
    t.pc c = s.pc c ∨ (s.pc c).inProgress = true := by
  rcases pc_cases executed c with same | ⟨rfl, _⟩ | ⟨ret, rfl, enabled, _⟩
  · exact Or.inl same
  · cases permitted
  · refine Or.inr ?_
    by_contra resting
    rw [despachar_of_resting _ _ (eq_false_of_ne_true resting)] at enabled
    cases enabled

theorem ordem_step {rotulo : Rotulo} (ordem : Ordem p)
    (executed : processo mensagens p rotulo = some q) : Ordem q := by
  cases rotulo with
  | cliente label =>
      obtain ⟨permitted, client, step, rfl⟩ := processo_cliente executed
      have moved := pc_of_permitido permitted (step_of_serialStep step)
      refine ⟨ordem.valida, ?_, ?_⟩
      · intro c progress
        rcases moved c with same | before
        · exact ordem.atual c (by rw [← same]; exact progress)
        · exact ordem.atual c before
      · intro c later
        rcases moved c with same | before
        · exact same.trans (ordem.futura c later)
        · have used := usadas_of_chamada (ordem.atual c before)
          dsimp only at later
          omega
  | principal =>
      cases passo_of_proximo executed with
      | @testa codigo principal =>
          have none : ∀ c, (p.client.pc c).inProgress ≠ true := by
            intro c progress
            have calls := ordem.atual c progress
            rw [principal] at calls
            cases calls
          refine ⟨?_, fun c progress => absurd progress (none c), ?_⟩
          · dsimp only
            split <;> trivial
          · intro c later
            apply ordem.futura c
            rw [principal]
            dsimp only at later
            split at later <;> simp only [Principal.usadas] at later ⊢ <;> omega
      | @destroi codigo principal =>
          refine ⟨trivial, ?_, ?_⟩
          · intro c progress
            have calls := ordem.atual c progress
            rw [principal] at calls
            cases calls
          · intro c later
            apply ordem.futura c
            rw [principal]
            exact later
      | @chama c calls idle =>
          refine ⟨ordem.valida, ?_, ?_⟩
          · intro d progress
            by_cases own : d = c
            · subst d
              exact calls
            · apply ordem.atual d
              simpa [State.setPc, own] using progress
          · intro d later
            have used := usadas_of_chamada calls
            have other : d ≠ c := by
              rintro rfl
              dsimp only at later
              omega
            simpa [State.setPc, other] using ordem.futura d later
      | @retorna c res calls returned =>
          obtain ⟨valida, grows, _⟩ := usadas_apos ordem.valida res
          refine ⟨valida, ?_, ?_⟩
          · intro d progress
            have same := ordem.atual d progress
            rw [calls] at same
            cases same
            dsimp only at progress
            rw [returned] at progress
            cases progress
          · intro d later
            exact ordem.futura d (Nat.le_trans grows later)

theorem ordem_of_run (run : Run (processo mensagens) inicio history p) : Ordem p := by
  apply run.invariant Ordem
  · constructor
    · exact Nat.succ_pos 99
    · intro c progress
      cases progress
    · intro c _
      rfl
  · intro _ _ _ before executed
    exact ordem_step before executed

/-- The call of the statement after a returned call has not been made. -/
theorem idle_apos (ordem : Ordem p) {d : CallId} {res : Bool}
    (next : (p.principal.apos res).chamada = some d) : p.client.pc d = .idle := by
  obtain ⟨_, _, later⟩ := usadas_apos ordem.valida res
  exact ordem.futura d (later d next)

end Order

end PahoClient.MqttTest
