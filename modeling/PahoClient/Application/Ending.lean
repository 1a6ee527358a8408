import PahoClient.Application.Registrations
import PahoClient.Properties.Rest
import PahoClient.Properties.Termination

/-!
# `mqtt-test` returns

The loop of `main` makes four hundred calls at most and the destructor one more,
each of a bounded number of statements, and whatever the thread waits for can go
on.  When the handle is destroyed nothing of the calls is left.
-/

namespace PahoClient.MqttTest

open PahoClient.Transition

/-! ## How much is left -/

/-- A statement of the thread, of a call, a handler or `mensagemRecebida`, or of
the library finishing or reporting a command. -/
def Rotulo.avanca : Rotulo → Bool
  | principal => true
  | cliente label => label.advances

/-- The statements that a step brings beyond those of the program: three for a
spurious wake-up and eight for a message. -/
def Rotulo.acrescimo : Rotulo → Nat
  | cliente (.wake _) => 3
  | cliente (.arrive _) => 8
  | _ => 0

/-- The statements left to the program where its thread arrives: those of the
calls to come, and two of the thread for each of them. -/
def Principal.resta : Principal → Nat
  | conectar i => 85 * (rodadas - i) + 22
  | subscribe i => 85 * (rodadas - i) + 1
  | unsubscribe i => 85 * (rodadas - i) - 23
  | desconectar i => 85 * (rodadas - i) - 43
  | destrutor _ => 22
  | desconectando _ => 21
  | destruir _ => 1
  | fim _ => 0

/-- The statements of the current call that its start has brought, with the
start itself. -/
def Processo.iniciadas (mensagens : Mensagens) (p : Processo) : Nat :=
  match p.principal.chamada with
  | some c => if p.client.pc c = .idle then 0 else ((programa mensagens).op c).instrucoes + 1
  | none => 0

/-- What the client sees of a history brings it these statements. -/
def trazidas (mensagens : Mensagens) (history : List (Event Processo Rotulo)) : Nat :=
  (seenOf visto history).foldr (fun label sum => label.acrescimo (programa mensagens) + sum) 0

/-- The statements of the thread itself. -/
def principais (history : List (Event Processo Rotulo)) : Nat :=
  history.countP fun event => decide (event.label = .principal)

section Budget

variable {mensagens : Mensagens} {p q : Processo} {history : List (Event Processo Rotulo)}

/-- A call and the two statements of the thread around it take the program to
the next statement. -/
theorem resta_apos (mensagens : Mensagens) {principal : Principal} (valida : principal.valida)
    {c : CallId} (calls : principal.chamada = some c) (res : Bool) :
    (principal.apos res).resta + ((programa mensagens).op c).instrucoes + 2 ≤ principal.resta := by
  have all : rodadas = 100 := rfl
  cases principal with
  | conectar i =>
      cases calls
      simp only [Principal.valida] at valida
      rw [op_conectar]
      cases res <;> simp only [Principal.apos, Principal.resta, Operation.instrucoes] <;> omega
  | subscribe i =>
      cases calls
      simp only [Principal.valida] at valida
      rw [op_subscribe]
      cases res <;> simp only [Principal.apos, Principal.resta, Operation.instrucoes] <;> omega
  | unsubscribe i =>
      cases calls
      simp only [Principal.valida] at valida
      rw [op_unsubscribe]
      cases res <;> simp only [Principal.apos, Principal.resta, Operation.instrucoes] <;> omega
  | desconectar i =>
      cases calls
      simp only [Principal.valida] at valida
      rw [op_desconectar]
      simp only [Principal.apos]
      split <;> simp only [Principal.resta, Operation.instrucoes] <;> omega
  | desconectando codigo =>
      cases calls
      rw [op_desconectar]
      cases res <;> exact Nat.le_refl _
  | destrutor codigo | destruir codigo | fim codigo => cases calls

/-- Without a start the client leaves the calls that have not been made. -/
theorem iniciadas_cliente {label : Label} {client : State} {cout : List StdString}
    (permitted : permitido label = true)
    (executed : step (programa mensagens) p.client label = some client) :
    ({ p with client := client, cout := cout } : Processo).iniciadas mensagens =
      p.iniciadas mensagens := by
  have idle : ∀ c, client.pc c = .idle ↔ p.client.pc c = .idle := by
    intro c
    rcases pc_of_permitido permitted executed c with same | progress
    · rw [same]
    · have started : p.client.pc c ≠ .idle := by
        intro idle
        rw [idle] at progress
        cases progress
      simp [started, started_step executed started]
  simp only [Processo.iniciadas, idle]

theorem acrescimo_of_permitido {label : Label} (permitted : permitido label = true) :
    label.acrescimo (programa mensagens) = (Rotulo.cliente label).acrescimo := by
  cases label with
  | start c => cases permitted
  | _ => rfl

/-- A statement of the thread is paid by what was left of the program. -/
theorem resta_principal (history : List (Event Processo Rotulo)) (ordem : Ordem p)
    (executed : proximo mensagens p = some q) :
    trazidas mensagens (⟨p, .principal, q⟩ :: history) + q.principal.resta + 1 +
        p.iniciadas mensagens ≤
      trazidas mensagens history + p.principal.resta + q.iniciadas mensagens := by
  have unseen : visto p .principal = none →
      trazidas mensagens (⟨p, .principal, q⟩ :: history) = trazidas mensagens history := by
    intro hidden
    simp [trazidas, seenOf, hidden]
  cases passo_of_proximo executed with
  | @testa codigo principal =>
      rw [unseen (by simp [visto, principal, Principal.chamada])]
      have idle : p.client.pc (4 * rodadas + 3) = .idle := by
        apply ordem.futura
        rw [principal]
        exact Nat.le_add_right _ 3
      have nothing : p.iniciadas mensagens = 0 := by
        simp [Processo.iniciadas, principal, Principal.chamada]
      rw [nothing, principal]
      dsimp only
      split <;> simp only [Principal.resta] <;> omega
  | @destroi codigo principal =>
      rw [unseen (by simp [visto, principal, Principal.chamada])]
      have nothing : p.iniciadas mensagens = 0 := by
        simp [Processo.iniciadas, principal, Principal.chamada]
      rw [nothing, principal]
      simp only [Principal.resta]
      omega
  | @chama c calls idle =>
      have seen : visto p .principal = some (.start c) := by simp [visto, calls, idle]
      have brought : trazidas mensagens (⟨p, .principal,
          { p with client := p.client.setPc c (entry ((programa mensagens).op c)) }⟩ :: history) =
          ((programa mensagens).op c).instrucoes + trazidas mensagens history := by
        simp [trazidas, seenOf, seen, Label.acrescimo]
      have before : p.iniciadas mensagens = 0 := by simp [Processo.iniciadas, calls, idle]
      have after : Processo.iniciadas mensagens
          { p with client := p.client.setPc c (entry ((programa mensagens).op c)) } =
          ((programa mensagens).op c).instrucoes + 1 := by
        have entered : entry ((programa mensagens).op c) ≠ .idle := by
          cases (programa mensagens).op c <;> simp [entry]
        simp [Processo.iniciadas, calls, State.setPc, entered]
      rw [brought, before, after]
      dsimp only
      omega
  | @retorna c res calls returned =>
      rw [unseen (by simp [visto, calls, returned])]
      have before : p.iniciadas mensagens = ((programa mensagens).op c).instrucoes + 1 := by
        simp [Processo.iniciadas, calls, returned]
      have left := resta_apos mensagens ordem.valida calls res
      rw [before]
      dsimp only
      omega

/-- What has been executed and what is left stay within the statements of the
program and those of the wake-ups and messages. -/
theorem resta_of_run (run : Run (processo mensagens) inicio history p) :
    trazidas mensagens history + principais history + p.principal.resta ≤
      8522 + total Rotulo.acrescimo history + p.iniciadas mensagens := by
  induction run with
  | refl =>
      have whole : inicio.principal.resta = 8522 := rfl
      rw [whole]
      simp [trazidas, seenOf, principais, total]
  | @tail history source target label earlier executed ih =>
      cases label with
      | cliente label =>
          obtain ⟨permitted, client, step, rfl⟩ := processo_cliente executed
          rw [iniciadas_cliente permitted (step_of_serialStep step)]
          have seen : trazidas mensagens (⟨source, .cliente label,
              ⟨source.principal, client, escreve mensagens source.client label ++ source.cout,
                source.cerr⟩⟩ :: history) =
              (Rotulo.cliente label).acrescimo + trazidas mensagens history := by
            simp [trazidas, seenOf, visto, acrescimo_of_permitido permitted]
          rw [seen, total, principais, List.countP_cons, ← principais]
          simp only [reduceCtorEq, decide_false, Bool.false_eq_true, if_false]
          omega
      | principal =>
          have paid := resta_principal history (ordem_of_run earlier) executed
          rw [total, principais, List.countP_cons, ← principais]
          simp only [Rotulo.acrescimo, decide_true, if_true]
          omega

/-- The statements of a history. -/
def executados (history : List (Event Processo Rotulo)) : Nat :=
  history.countP fun event => event.label.avanca

/-- Of the thread the client sees the starts of its calls. -/
theorem start_of_visto {label : Label} (seen : visto p .principal = some label) :
    ∃ c, label = .start c := by
  simp only [visto] at seen
  split at seen
  · split at seen <;> cases seen
    exact ⟨_, rfl⟩
  · cases seen

/-- They are those of the thread and those that the client sees. -/
theorem executados_eq (history : List (Event Processo Rotulo)) :
    executados history =
      principais history + (seenOf visto history).countP fun label => label.advances := by
  induction history with
  | nil => rfl
  | cons event earlier ih =>
      obtain ⟨source, label, target⟩ := event
      rw [executados, List.countP_cons, ← executados, principais, List.countP_cons, ← principais,
        seenOf_cons, List.countP_append, ih]
      cases label with
      | cliente label =>
          have seen : visto source (.cliente label) = some label := rfl
          simp only [seen, Option.toList_some, List.countP_singleton, Rotulo.avanca, reduceCtorEq,
            decide_false, Bool.false_eq_true, if_false]
          by_cases advances : label.advances = true
          · simp only [advances, if_true]
            omega
          · simp only [advances, Bool.false_eq_true, if_false]
            omega
      | principal =>
          have silent :
              ((visto source .principal).toList.countP fun label => label.advances) = 0 := by
            cases seen : visto source .principal with
            | none => rfl
            | some label =>
                obtain ⟨c, rfl⟩ := start_of_visto seen
                rfl
          simp only [silent, Rotulo.avanca, decide_true, if_true]
          omega

/-- The whole program executes a bounded number of statements. -/
theorem executados_le (run : Run (processo mensagens) inicio history p) :
    executados history ≤ 8522 + total Rotulo.acrescimo history := by
  obtain ⟨clientHistory, clientRun, labels⟩ := cliente_of_run run
  have bounded := avancos_le_limite clientRun
  have brought : limite (programa mensagens) clientHistory = trazidas mensagens history := by
    rw [limite, total_eq_foldr, labels, trazidas]
  have advanced : avancos clientHistory =
      (seenOf visto history).countP fun label => label.advances := by
    rw [← labels, List.countP_map]
    rfl
  have left := resta_of_run run
  have started : p.iniciadas mensagens ≤ p.principal.resta := by
    unfold Processo.iniciadas
    split
    · rename_i c calls
      have ahead := resta_apos mensagens (ordem_of_run run).valida calls true
      split <;> omega
    · exact Nat.zero_le _
  rw [executados_eq]
  omega

/-! ## Nothing blocks the program -/

/-- `main` has returned, and nothing that it began at the client is under way. -/
def Terminado (p : Processo) : Prop :=
  (∃ codigo, p.principal = .fim codigo) ∧ Assentado p.client

/-- Where a run of `mensagemRecebida` can go on, it can with any value of its
callback. -/
theorem mensagemRecebida_of_ret {chave : StdString} {m : MsgId} {ret : Int} {s t : State}
    (executed : Connect.mensagemRecebida chave m ret s = some t) (other : Int) :
    ∃ t', Connect.mensagemRecebida chave m other s = some t' := by
  cases pc : (s.delivery m).pc with
  | inside =>
      refine ⟨s.setDelivery m { s.delivery m with pc := .test, ret := other }, ?_⟩
      simp only [Connect.mensagemRecebida, pc]
  | _ =>
      simp only [Connect.mensagemRecebida, pc] at executed ⊢
      exact ⟨t, executed⟩

/-- What can go on at the client can go on in the process. -/
theorem avanca_of_advances (goes : Advances (programa mensagens) p.client) :
    ∃ rotulo q, Rotulo.avanca rotulo = true ∧ processo mensagens p rotulo = some q := by
  obtain ⟨label, client, advances, executed⟩ := goes
  have lifts : ∀ label client, label.advances = true → permitido label = true →
      serialStep (programa mensagens) p.client label = some client →
      ∃ rotulo q, Rotulo.avanca rotulo = true ∧ processo mensagens p rotulo = some q := by
    intro label client advances permitted executed
    refine ⟨.cliente label, { p with
      client := client
      cout := escreve mensagens p.client label ++ p.cout }, advances, ?_⟩
    rw [processo, if_pos permitted, executed]
    rfl
  cases label with
  | start c => cases advances
  | message m ret =>
      have plain : Connect.mensagemRecebida ((programa mensagens).chave m) m ret p.client =
          some client := step_of_serialStep executed
      obtain ⟨other, step⟩ := mensagemRecebida_of_ret plain 1
      exact lifts (.message m 1) other rfl rfl step
  | call | wake | complete | deliver | handler | arrive | network =>
      exact lifts _ client advances rfl executed

/-- Before the program has ended something in it can go on. -/
theorem avanca_of_run (run : Run (processo mensagens) inicio history p) (running : ¬ Terminado p) :
    ∃ rotulo q, Rotulo.avanca rotulo = true ∧ processo mensagens p rotulo = some q := by
  have inv := lockInv_of_processo run
  cases calls : p.principal.chamada with
  | some c =>
      have next : proximo mensagens p = _ := proximo_of_chamada calls
      by_cases progress : (p.client.pc c).inProgress = true
      · exact avanca_of_advances (inv.advances progress)
      · refine ⟨.principal, ?_⟩
        cases pc : p.client.pc c with
        | idle =>
            have begun : step (programa mensagens) p.client (.start c) =
                some (p.client.setPc c (entry ((programa mensagens).op c))) := by
              simp [step, goto, pc]
            rw [pc, begun] at next
            exact ⟨_, rfl, next⟩
        | returned res =>
            rw [pc] at next
            exact ⟨_, rfl, next⟩
        | _ =>
            rw [pc] at progress
            exact absurd rfl progress
  | none =>
      cases principal : p.principal with
      | destrutor codigo =>
          exact ⟨.principal, _, rfl, by simp only [processo, proximo, principal]; rfl⟩
      | destruir codigo =>
          exact ⟨.principal, _, rfl, by simp only [processo, proximo, principal]; rfl⟩
      | fim codigo =>
          apply avanca_of_advances
          by_contra stuck
          exact running ⟨⟨codigo, principal⟩, inv.assentado stuck⟩
      | conectar | subscribe | unsubscribe | desconectar | desconectando =>
          rw [principal] at calls
          cases calls

end Budget

/-- `mqtt-test` comes to an end whatever the broker, the network and the order of
the threads do: it executes at most 8522 statements, three more for a spurious
wake-up and eight for a message, something in it can go on as long as `main` has
not returned, and so it can always be brought to its end. -/
theorem main_returns (mensagens : Mensagens) {history : List (Event Processo Rotulo)}
    {p : Processo} (run : Run (processo mensagens) inicio history p) :
    executados history ≤ 8522 + total Rotulo.acrescimo history ∧
      (Terminado p ∨ ∃ rotulo q, rotulo.avanca = true ∧
        processo mensagens p rotulo = some q) ∧
      ∃ later q, Run (processo mensagens) p later q ∧
        (∀ event ∈ later, event.label.avanca = true) ∧ Terminado q := by
  refine ⟨executados_le run, ?_, ?_⟩
  · by_cases ended : Terminado p
    · exact Or.inl ended
    · exact Or.inr (avanca_of_run run ended)
  · obtain ⟨later, q, continued, advancing, stuck⟩ := exists_maximal (s := p) Rotulo.avanca
      (8522 + total Rotulo.acrescimo history) fun later q continued advancing => by
        have bounded := executados_le (run.trans continued)
        have free : total Rotulo.acrescimo later = 0 := by
          apply total_eq_zero
          rintro ⟨source, label, target⟩ member
          have advances := advancing _ member
          cases label with
          | principal => rfl
          | cliente label =>
              cases label with
              | wake c | arrive m => cases advances
              | _ => rfl
        have all : later.countP (fun event => event.label.avanca) = later.length :=
          List.countP_eq_length.mpr advancing
        rw [executados, List.countP_append, all, total_append, free] at bounded
        omega
    refine ⟨later, q, continued, advancing, ?_⟩
    by_contra running
    obtain ⟨rotulo, next, advances, executed⟩ := avanca_of_run (run.trans continued) running
    rw [stuck rotulo advances] at executed
    cases executed

theorem main_returns_first_round :
    ∃ history p, Run (processo ⟨fun _ => [], fun _ => []⟩) inicio history p ∧
      p.principal = .unsubscribe 0 ∧
      ∃ later q, Run (processo ⟨fun _ => [], fun _ => []⟩) p later q ∧
        (∀ event ∈ later, event.label.avanca = true) ∧ Terminado q := by
  obtain ⟨p, run, stands⟩ := exists_run_of_execute (processo ⟨fun _ => [], fun _ => []⟩) inicio
    (primeiraInscricao ++ [.cliente (.arrive 0), .cliente (.message 0 1)]) (fun p => p.principal)
    (.unsubscribe 0) (by decide)
  exact ⟨_, p, run, stands, (main_returns _ run).2.2⟩

/-! ## The destructor -/

/-- The destructor is past its disconnect call. -/
def Principal.destroi : Principal → Bool
  | destruir _ | fim _ => true
  | _ => false

section Destructor

variable {mensagens : Mensagens} {p q : Processo} {later : List (Event Processo Rotulo)}

theorem chamada_of_destroi {principal : Principal} (destroys : principal.destroi = true) :
    principal.chamada = none := by
  cases principal with
  | destruir | fim => rfl
  | _ => cases destroys

theorem repouso_of_later (run : Run (processo mensagens) p later q)
    (destroys : p.principal.destroi = true) (rest : Repouso p.client) :
    q.principal.destroi = true ∧ Repouso q.client ∧
      q.client.callbackMap = p.client.callbackMap ∧
      ∀ event ∈ later, ∀ label, event.label = .cliente label → label.passivo = true := by
  induction run with
  | refl => exact ⟨destroys, rest, rfl, by simp⟩
  | @tail later source target label _ executed ih =>
      obtain ⟨stands, still, map, passive⟩ := ih
      cases label with
      | principal =>
          have quiet : ∀ event ∈ (⟨source, .principal, target⟩ : Event Processo Rotulo) :: later,
              ∀ label, event.label = .cliente label → label.passivo = true := by
            refine List.forall_mem_cons.mpr ⟨?_, passive⟩
            intro label impossible
            cases impossible
          cases passo_of_proximo executed with
          | testa principal =>
              rw [principal] at stands
              cases stands
          | destroi principal => exact ⟨rfl, still, map, quiet⟩
          | chama calls | retorna calls =>
              rw [chamada_of_destroi stands] at calls
              cases calls
      | cliente label =>
          obtain ⟨permitted, client, step, rfl⟩ := processo_cliente executed
          have notStart : ∀ c, label ≠ .start c := by
            rintro c rfl
            cases permitted
          obtain ⟨passes, after, same⟩ := still.step notStart (step_of_serialStep step)
          refine ⟨stands, after, same.trans map, List.forall_mem_cons.mpr ⟨?_, passive⟩⟩
          rintro other equal
          cases equal
          exact passes

end Destructor

/-- When the destructor gets to `_dll.destroy` no call and no completion handler
is under way and nobody holds `_conexao_mtx` or a context, and from then on
nothing but messages can reach the client: neither a handler nor a call will use
it again. -/
theorem handle_destroyed_at_rest (mensagens : Mensagens)
    {history : List (Event Processo Rotulo)} {p : Processo} {codigo : Int}
    (run : Run (processo mensagens) inicio history p)
    (destroys : p.principal = .destruir codigo) :
    Repouso p.client ∧ ∀ later q, Run (processo mensagens) p later q →
      Repouso q.client ∧ q.client.callbackMap = p.client.callbackMap ∧
        ∀ event ∈ later, ∀ label, event.label = .cliente label → label.passivo = true := by
  have resting : ∀ c, (p.client.pc c).inProgress = false := by
    intro c
    by_contra progress
    have calls := (ordem_of_run run).atual c (eq_true_of_ne_false progress)
    rw [destroys] at calls
    cases calls
  have rest := (lockInv_of_processo run).inv.repouso resting
  refine ⟨rest, ?_⟩
  intro later q continued
  exact (repouso_of_later continued (by rw [destroys]; rfl) rest).2

theorem handle_destroyed_at_rest_connected :
    ∃ history p, Run (processo ⟨fun _ => [], fun _ => []⟩) inicio history p ∧
      p.principal = .destruir (-1) ∧ p.client.request 403 = .done (.onSuccess ⟨0, [], 0⟩) ∧
      Repouso p.client := by
  obtain ⟨p, run, view⟩ := exists_run_of_execute (processo ⟨fun _ => [], fun _ => []⟩) inicio
    (primeiraInscricao ++ saidaNaPrimeira.dropLast)
    (fun p => (p.principal, p.client.request 403))
    (.destruir (-1), .done (.onSuccess ⟨0, [], 0⟩)) (by decide)
  simp only [Prod.mk.injEq] at view
  exact ⟨_, p, run, view.1, view.2, (handle_destroyed_at_rest _ run view.1).1⟩

end PahoClient.MqttTest
