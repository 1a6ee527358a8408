import PahoClient.Application.Thread
import PahoClient.Client.Sequential

/-!
# What `mqtt-test` leaves in the callback table

Every call of the thread runs alone, so its loops are all that changes the table
between two statements of `main`.  The subscription of the third topic outlives
its round, and each failing call leaves its own traces.
-/

namespace PahoClient.MqttTest

open PahoClient.Transition
open PahoClient.Store

/-! ## The tables -/

def nenhuma : CallbackMap :=
  fun _ => none

/-- All three subscriptions. -/
def todas : CallbackMap :=
  Subscribe.inserir inscricao nenhuma

/-- What an unsubscribe call leaves of them. -/
def restante : CallbackMap :=
  Unsubscribe.apagar desinscricao todas

/-- The table at a statement that `main` reaches after successful calls. -/
def Principal.tabela : Principal → CallbackMap
  | conectar i | subscribe i => if i = 0 then nenhuma else restante
  | unsubscribe _ => todas
  | desconectar _ | destrutor _ | desconectando _ | destruir _ | fim _ => restante

/-- The tables that a statement can leave whose call has failed.  An unsubscribe
call that was accepted has erased its topics already. -/
def Principal.deixa : Principal → CallbackMap → Prop
  | conectar i, tabela => tabela = (conectar i).tabela
  | subscribe _, tabela => tabela = nenhuma
  | unsubscribe _, tabela => tabela = todas ∨ tabela = restante
  | desconectar _, _ | destrutor _, _ | desconectando _, _ | destruir _, _ | fim _, _ => False

/-- The value that `main` returns, once it is known. -/
def Principal.codigo : Principal → Option Int
  | destrutor codigo | desconectando codigo | destruir codigo | fim codigo => some codigo
  | conectar _ | subscribe _ | unsubscribe _ | desconectar _ => none

/-- `main` has left the loop after the last round, or at a failing call that it
has reported. -/
def Saida (p : Processo) (codigo : Int) : Prop :=
  codigo = 0 ∧ p.cerr = [] ∧ p.client.callbackMap = restante ∨
    codigo = -1 ∧ ∃ comando : Principal, comando.valida ∧ p.cerr = comando.erro false ∧
      comando.deixa p.client.callbackMap

/-- What is in the table, and what `main` has written, where the thread stands. -/
structure Registros (p : Processo) : Prop where
  antes : p.principal.codigo = none → ∀ c, p.principal.chamada = some c →
    p.client.pc c = .idle → p.client.callbackMap = p.principal.tabela
  depois : p.principal.codigo = none → ∀ c res, p.principal.chamada = some c →
    p.client.pc c = .returned res →
      if p.principal.erro res = [] then
        p.client.callbackMap = (p.principal.apos res).tabela
      else p.principal.deixa p.client.callbackMap
  cerr : p.principal.codigo = none → p.cerr = []
  saida : ∀ codigo, p.principal.codigo = some codigo → Saida p codigo

/-! ## Updates of the tables -/

theorem restante_le {topico : StdString} {callback : Callback}
    (present : restante topico = some callback) : todas topico = some callback := by
  by_cases erased : topico ∈ desinscricao
  · rw [restante, Unsubscribe.apagar, Table.eraseAll_of_mem erased] at present
    cases present
  · rwa [restante, Unsubscribe.apagar, Table.eraseAll_of_not_mem erased] at present

/-- The insertion loop fills up what the round before has left. -/
theorem inserir_restante : Subscribe.inserir inscricao restante = todas := by
  funext topico
  cases present : restante topico with
  | none =>
      rw [Subscribe.inserir, Table.insertAll_of_absent _ present, todas, Subscribe.inserir,
        Table.insertAll_of_absent _ rfl]
  | some callback =>
      rw [Subscribe.inserir, Table.insertAll_of_present _ present, restante_le present]

/-- The rollback loops erase all topics. -/
theorem desfazer_todas : Subscribe.desfazer inscricao todas = nenhuma := by
  rw [Subscribe.desfazer_eq_eraseAll]
  funext topico
  by_cases listed : topico ∈ inscricao.topicos
  · rw [Table.eraseAll_of_mem listed]
    rfl
  · rw [Table.eraseAll_of_not_mem listed, todas, Subscribe.inserir,
      Table.insertAll_of_absent _ rfl, (lookup_zip_eq_none_iff inscricao.covered).mpr listed]
    rfl

theorem inserir_tabela (i : Nat) :
    Subscribe.inserir inscricao (Principal.subscribe i).tabela = todas := by
  rw [Principal.tabela]
  split
  · rfl
  · exact inserir_restante

/-! ## Calls in turn -/

section Programa

variable (mensagens : Mensagens) (i : Nat)

theorem op_conectar : (programa mensagens).op (4 * i) = .conectar := by
  have rest : 4 * i % 4 = 0 := Nat.mul_mod_right 4 i
  simp only [programa, rest]

theorem op_subscribe : (programa mensagens).op (4 * i + 1) = .subscribe inscricao := by
  have rest : (4 * i + 1) % 4 = 1 := by omega
  simp only [programa, rest]

theorem op_unsubscribe : (programa mensagens).op (4 * i + 2) = .unsubscribe desinscricao := by
  have rest : (4 * i + 2) % 4 = 2 := by omega
  simp only [programa, rest]

theorem op_desconectar : (programa mensagens).op (4 * i + 3) = .desconectar := by
  have rest : (4 * i + 3) % 4 = 3 := by omega
  simp only [programa, rest]

end Programa

/-- When the loops of a step can be those of one call only, they are its
updates. -/
theorem updates_of_only {program : Program} {event : Event State Label} {c : CallId}
    (only : ∀ d laco, lacoOf program event = some (d, laco) → d = c) :
    updates program [event] = loopUpdates (program.op c) c (lacosBy program c [event]) := by
  cases loops : lacoOf program event with
  | none => simp [updates, lacosBy, lacos, loops, loopUpdates]
  | some entry =>
      obtain ⟨d, laco⟩ := entry
      cases only d laco loops
      rw [updates_of_loop loops, lacosBy_of_loop loops]
      rfl

section Steps

variable {mensagens : Mensagens} {p q : Processo} {history : List (Event Processo Rotulo)}

/-- The table, as the loops of the current call have left it. -/
structure Tabelas (mensagens : Mensagens) (p : Processo) : Prop where
  dentro : p.principal.codigo = none → p.cerr = [] ∧ ∀ c, p.principal.chamada = some c →
    p.client.callbackMap = Log.replay p.principal.tabela
      (loopUpdates ((programa mensagens).op c) c
        (lacosAt ((programa mensagens).op c) (p.client.pc c) (p.client.request c)))
  fora : ∀ codigo, p.principal.codigo = some codigo → Saida p codigo

/-- A step of the client runs loops of the current call only. -/
theorem loops_of_atual {program : Program} (inv : Inv program p.client) (ordem : Ordem p)
    {label : Label} {client : State} {d : CallId} {laco : Laco}
    (loops : lacoOf program ⟨p.client, label, client⟩ = some (d, laco)) :
    p.principal.chamada = some d :=
  ordem.atual d (inProgress_of_loop inv loops)

/-- After the loop no step of the client changes the table. -/
theorem callbackMap_of_codigo (inv : Inv (programa mensagens) p.client) (ordem : Ordem p)
    {codigo : Int} (known : p.principal.codigo = some codigo) {label : Label} {client : State}
    (executed : step (programa mensagens) p.client label = some client) :
    client.callbackMap = p.client.callbackMap := by
  have quiet : lacoOf (programa mensagens) ⟨p.client, label, client⟩ = none := by
    cases loops : lacoOf (programa mensagens) ⟨p.client, label, client⟩ with
    | none => rfl
    | some entry =>
        obtain ⟨d, laco⟩ := entry
        have calls := loops_of_atual inv ordem loops
        cases principal : p.principal with
        | desconectando codigo =>
            rw [principal] at calls
            cases calls
            have op := op_desconectar mensagens rodadas
            rcases label_of_lacoOf loops with ⟨ret, rfl, pc⟩ | ⟨_, _, _, _, _, other⟩
            · rcases op_of_loop executed pc with ⟨_, other, _⟩ | ⟨_, other, _⟩ <;>
                rw [op] at other <;> cases other
            · rw [op] at other
              cases other
        | destrutor codigo | destruir codigo | fim codigo =>
            rw [principal] at calls
            cases calls
        | conectar i | subscribe i | unsubscribe i | desconectar i =>
            rw [principal] at known
            cases known
  rw [callbackMap_step executed]
  simp [updates, lacos, quiet]

/-- The loops of a returned subscribe call fill the table or clear it. -/
theorem tabela_subscribe {i : Nat} {res : Bool} {request : Request}
    (progress : progress (.subscribe inscricao) (.returned res) request)
    (enters : entered (.subscribe inscricao) (.returned res) request) :
    Log.replay (Principal.subscribe i).tabela (loopUpdates (.subscribe inscricao) (4 * i + 1)
        (lacosAt (.subscribe inscricao) (.returned res) request)) =
      if res then todas else nenhuma := by
  have undone : Subscribe.desfazer inscricao
      (Subscribe.inserir inscricao (Principal.subscribe i).tabela) = nenhuma := by
    rw [inserir_tabela, desfazer_todas]
  rw [Subscribe.desfazer_eq_eraseAll] at undone
  have issued : request ≠ .unissued := by
    rcases enters with ⟨_, empty, _⟩ | ⟨issued, _⟩
    · cases empty
    · exact issued
  rcases progress with unissued | ⟨ret, rfl, rfl⟩ | ⟨completion, rfl, rfl⟩
  · exact absurd unissued issued
  · exact undone
  · cases outcome : (Operation.subscribe inscricao).outcome completion with
    | true =>
        simp only [lacosAt, Request.desfeito, outcome]
        exact inserir_tabela i
    | false =>
        simp only [lacosAt, Request.desfeito, outcome]
        exact undone

/-- The loop of a returned unsubscribe call has run unless the library rejected
the request. -/
theorem tabela_unsubscribe {i : Nat} {res : Bool} {request : Request}
    (progress : progress (.unsubscribe desinscricao) (.returned res) request)
    (enters : entered (.unsubscribe desinscricao) (.returned res) request) :
    Log.replay (Principal.unsubscribe i).tabela (loopUpdates (.unsubscribe desinscricao)
        (4 * i + 2) (lacosAt (.unsubscribe desinscricao) (.returned res) request)) = restante ∨
      res = false ∧ Log.replay (Principal.unsubscribe i).tabela
        (loopUpdates (.unsubscribe desinscricao) (4 * i + 2)
          (lacosAt (.unsubscribe desinscricao) (.returned res) request)) = todas := by
  rcases progress with unissued | ⟨ret, rfl, rfl⟩ | ⟨completion, rfl, rfl⟩
  · exact absurd unissued enters
  · exact Or.inr ⟨rfl, rfl⟩
  · exact Or.inl rfl

/-- After a call `main` stays in the loop, leaves it at its end, or leaves it at
a failure that it reports. -/
theorem apos_cases {principal : Principal} (inside : principal.codigo = none) (res : Bool) :
    ((principal.apos res).codigo = none ∧ principal.erro res = []) ∨
      (principal.apos res = .destrutor 0 ∧ principal.erro res = []) ∨
      (principal.apos res = .destrutor (-1) ∧ res = false ∧ principal.erro res ≠ []) := by
  cases principal with
  | conectar i | subscribe i | unsubscribe i =>
      cases res with
      | true => exact Or.inl ⟨rfl, rfl⟩
      | false => exact Or.inr (Or.inr ⟨rfl, rfl, List.cons_ne_nil _ _⟩)
  | desconectar i =>
      by_cases again : i + 1 < rodadas
      · exact Or.inl ⟨by simp [Principal.apos, again, Principal.codigo], rfl⟩
      · exact Or.inr (Or.inl ⟨by simp [Principal.apos, again], rfl⟩)
  | destrutor codigo | desconectando codigo | destruir codigo | fim codigo => cases inside

/-- The call of a statement leaves the table of the next statement, or one that
the failure of the statement can leave. -/
theorem tabela_returned (inv : Inv (programa mensagens) p.client)
    (enters : ∀ c, entered ((programa mensagens).op c) (p.client.pc c) (p.client.request c))
    (tabelas : Tabelas mensagens p) (inside : p.principal.codigo = none) {c : CallId} {res : Bool}
    (calls : p.principal.chamada = some c) (returned : p.client.pc c = .returned res) :
    if p.principal.erro res = [] then p.client.callbackMap = (p.principal.apos res).tabela
    else p.principal.deixa p.client.callbackMap := by
  have table := (tabelas.dentro inside).2 c calls
  have progress := inv.progress c
  have entered := enters c
  rw [returned] at table progress entered
  cases principal : p.principal with
  | conectar i =>
      rw [principal] at table calls
      cases calls
      rw [op_conectar] at table
      cases res with
      | true => exact table
      | false => exact table
  | subscribe i =>
      rw [principal] at table calls
      cases calls
      rw [op_subscribe] at table progress entered
      rw [tabela_subscribe progress entered] at table
      cases res with
      | true => exact table
      | false => exact table
  | unsubscribe i =>
      rw [principal] at table calls
      cases calls
      rw [op_unsubscribe] at table progress entered
      rcases tabela_unsubscribe progress entered with erased | ⟨rfl, kept⟩
      · rw [erased] at table
        cases res with
        | true => exact table
        | false => exact Or.inr table
      · rw [kept] at table
        exact Or.inl table
  | desconectar i =>
      rw [principal] at table calls
      cases calls
      rw [op_desconectar] at table
      have after : ((Principal.desconectar i).apos res).tabela = restante := by
        simp only [Principal.apos]
        split <;> simp [Principal.tabela]
      simp only [Principal.erro, if_true, after]
      exact table
  | destrutor codigo | desconectando codigo | destruir codigo | fim codigo =>
      rw [principal] at inside
      cases inside

/-- A statement of the client keeps the table behind the loops of its call. -/
theorem tabelas_cliente (inv : Inv (programa mensagens) p.client) (ordem : Ordem p)
    (tabelas : Tabelas mensagens p) {label : Label} {client : State} {cout : List StdString}
    (executed : step (programa mensagens) p.client label = some client) :
    Tabelas mensagens { p with client := client, cout := cout } where
  dentro inside := by
    obtain ⟨cerr, table⟩ := tabelas.dentro inside
    refine ⟨cerr, ?_⟩
    intro c calls
    have only : ∀ d laco,
        lacoOf (programa mensagens) ⟨p.client, label, client⟩ = some (d, laco) → d = c := by
      intro d laco loops
      have same := loops_of_atual inv ordem loops
      rw [calls] at same
      exact (Option.some.inj same).symm
    dsimp only
    rw [callbackMap_step executed, updates_of_only only, lacosAt_step inv executed c, loopUpdates,
      loopUpdates, List.map_append, Log.replay_append, table c calls]
    rfl
  fora codigo known := by
    have same := callbackMap_of_codigo inv ordem known executed
    have before := tabelas.fora codigo known
    unfold Saida at before ⊢
    dsimp only
    rw [same]
    exact before

theorem tabelas_step (inv : Inv (programa mensagens) p.client)
    (enters : ∀ c, entered ((programa mensagens).op c) (p.client.pc c) (p.client.request c))
    (ordem : Ordem p) (tabelas : Tabelas mensagens p) {rotulo : Rotulo}
    (executed : processo mensagens p rotulo = some q) : Tabelas mensagens q := by
  cases rotulo with
  | cliente label =>
      obtain ⟨_, client, step, rfl⟩ := processo_cliente executed
      exact tabelas_cliente inv ordem tabelas (step_of_serialStep step)
  | principal =>
      cases passo_of_proximo executed with
      | @testa codigo principal =>
          have before := tabelas.fora codigo (by rw [principal]; rfl)
          constructor
          · intro inside
            dsimp only at inside
            split at inside <;> cases inside
          · intro other known
            dsimp only at known
            split at known <;> cases known <;> exact before
      | @destroi codigo principal =>
          have before := tabelas.fora codigo (by rw [principal]; rfl)
          constructor
          · intro inside
            cases inside
          · intro other known
            cases known
            exact before
      | @chama c calls idle =>
          have executed : step (programa mensagens) p.client (.start c) =
              some (p.client.setPc c (entry ((programa mensagens).op c))) := by
            simp [step, idle, goto]
          exact tabelas_cliente inv ordem tabelas executed
      | @retorna c res calls returned =>
          cases inside : p.principal.codigo with
          | some codigo =>
              have before := tabelas.fora codigo inside
              cases principal : p.principal with
              | desconectando codigo =>
                  rw [principal] at inside
                  cases inside
                  constructor
                  · intro inside
                    cases inside
                  · intro other known
                    cases known
                    exact before
              | destrutor codigo | destruir codigo | fim codigo =>
                  rw [principal] at calls
                  cases calls
              | conectar i | subscribe i | unsubscribe i | desconectar i =>
                  rw [principal] at inside
                  cases inside
          | none =>
              have left := tabela_returned inv enters tabelas inside calls returned
              have silent := (tabelas.dentro inside).1
              rcases apos_cases inside res with ⟨still, quiet⟩ | ⟨leaves, quiet⟩ |
                ⟨leaves, rfl, reported⟩
              · rw [if_pos quiet] at left
                constructor
                · intro _
                  refine ⟨?_, ?_⟩
                  · dsimp only
                    rw [quiet, silent]
                    rfl
                  · intro d next
                    dsimp only
                    rw [idle_apos ordem next, lacosAt_idle]
                    exact left
                · intro codigo known
                  dsimp only at known
                  rw [still] at known
                  cases known
              · rw [if_pos quiet, leaves] at left
                constructor
                · intro still
                  dsimp only at still
                  rw [leaves] at still
                  cases still
                · intro codigo known
                  dsimp only at known
                  rw [leaves] at known
                  cases known
                  refine Or.inl ⟨rfl, ?_, left⟩
                  dsimp only
                  rw [quiet, silent]
                  rfl
              · rw [if_neg reported] at left
                constructor
                · intro still
                  dsimp only at still
                  rw [leaves] at still
                  cases still
                · intro codigo known
                  dsimp only at known
                  rw [leaves] at known
                  cases known
                  refine Or.inr ⟨rfl, p.principal, ordem.valida, ?_, left⟩
                  dsimp only
                  rw [silent, List.append_nil]

theorem entered_of_processo (run : Run (processo mensagens) inicio history p) (c : CallId) :
    entered ((programa mensagens).op c) (p.client.pc c) (p.client.request c) := by
  obtain ⟨_, clientRun, _⟩ := cliente_of_run run
  exact entered_of_run (clientRun.mono fun _ _ _ step => step_of_serialStep step)
    (inv_initial _ _ _) rfl

theorem tabelas_of_run (run : Run (processo mensagens) inicio history p) :
    Tabelas mensagens p := by
  induction run with
  | refl =>
      constructor
      · intro _
        refine ⟨rfl, ?_⟩
        intro c calls
        cases calls
        rfl
      · intro codigo known
        cases known
  | tail earlier executed ih =>
      exact tabelas_step (lockInv_of_processo earlier).inv (entered_of_processo earlier)
        (ordem_of_run earlier) ih executed

end Steps

/-- Wherever `main` stands, between whatever messages and completions, the table
and the lines that `main` writes are determined: a statement finds what the
statements before it leave, a call that `main` goes on after leaves what the next
statement finds, and a failing one that it reports, returning -1, leaves what its
failure can leave.  After the last round the third topic is still subscribed. -/
theorem registrations_follow_main (mensagens : Mensagens) {history : List (Event Processo Rotulo)}
    {p : Processo} (run : Run (processo mensagens) inicio history p) : Registros p where
  antes inside c calls idle := by
    have table := ((tabelas_of_run run).dentro inside).2 c calls
    rw [idle, lacosAt_idle] at table
    exact table
  depois inside _ _ calls returned :=
    tabela_returned (lockInv_of_processo run).inv (entered_of_processo run) (tabelas_of_run run)
      inside calls returned
  cerr inside := ((tabelas_of_run run).dentro inside).1
  saida := (tabelas_of_run run).fora

/-- The statements of a call with its thread. -/
def chamadas (c : CallId) (n : Nat) : List Rotulo :=
  List.replicate n (.cliente (.call c 0))

/-- The library completes the command of a call. -/
def conclusao (c : CallId) (res : SuccessData) : List Rotulo :=
  [Rotulo.cliente (.complete c (.onSuccess res)), .cliente (.deliver c)] ++
    List.replicate 6 (Rotulo.cliente (.handler c))

/-- The first round up to its subscription. -/
def primeiraInscricao : List Rotulo :=
  Rotulo.principal :: chamadas 0 4 ++ conclusao 0 ⟨0, [], 0⟩ ++ chamadas 0 4 ++
    [Rotulo.principal, .principal] ++ chamadas 1 5 ++ conclusao 1 ⟨0, [1, 1, 1], 0⟩ ++
    chamadas 1 3 ++ [Rotulo.principal]

/-- The library rejects the unsubscribe request of the first round, and the
destructor disconnects. -/
def saidaNaPrimeira : List Rotulo :=
  [Rotulo.principal, .cliente (.call 2 (-1)), .principal, .principal, .principal] ++
    chamadas 403 3 ++ conclusao 403 ⟨0, [], 0⟩ ++ chamadas 403 4 ++
    [Rotulo.principal, .principal]

theorem registrations_follow_main_rejected :
    ∃ history p, Run (processo ⟨fun _ => [], fun _ => []⟩) inicio history p ∧
      p.principal = .fim (-1) ∧ Registros p := by
  obtain ⟨p, run, left⟩ := exists_run_of_execute (processo ⟨fun _ => [], fun _ => []⟩) inicio
    (primeiraInscricao ++ saidaNaPrimeira) (fun p => p.principal) (.fim (-1)) (by decide)
  exact ⟨_, p, run, left, registrations_follow_main _ run⟩

end PahoClient.MqttTest
