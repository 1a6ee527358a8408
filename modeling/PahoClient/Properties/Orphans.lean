import PahoClient.Client.Broker
import PahoClient.Transition.Splits

/-!
# Subscriptions of the broker without a callback

A subscription that is granted in part is rolled back in the client's table as a
whole, while the broker keeps the topics it has granted.
-/

namespace PahoClient

open PahoClient.Transition

/-- Every filter that the broker holds for the client has a callback. -/
def SemOrfaos (mundo : Mundo) : Prop :=
  ∀ topico ∈ mundo.sessao, mundo.cliente.callbackMap topico ≠ none

/-- A subscribe call and the library's answer to it. -/
abbrev Inscricao := Subscribe.Args × Resposta

def Inscricao.passo (inscricao : Inscricao) : Passo :=
  .chamada (.subscribe inscricao.1) inscricao.2

/-- A sequential history of subscribe calls. -/
def inscrever (conectado : Bool) (inscricoes : List Inscricao) : Mundo :=
  executarPassos (Mundo.vazio conectado) (inscricoes.map Inscricao.passo)

/-- The call is granted in full, or none of its topics is in the session before
the call or granted by it. -/
def Inscricao.Segura (inscricao : Inscricao) (sessao : Finset StdString) : Prop :=
  (∃ data, inscricao.2 = .concluida (.onSuccess data) ∧
    Subscribe.recusado inscricao.1 data = false) ∨
  ∀ topico ∈ inscricao.1.topicos, topico ∉ sessao ∧
    ∀ data, inscricao.2 = .concluida (.onSuccess data) → topico ∉ concedidos inscricao.1 data

section Step

variable {mundo : Mundo} {inscricao : Inscricao}

theorem semOrfaos_vazio (conectado : Bool) : SemOrfaos (Mundo.vazio conectado) := by
  intro topico held
  simp [Mundo.vazio] at held

theorem sessao_of_passo (nonempty : inscricao.1.topicos ≠ []) (topico : StdString) :
    topico ∈ (inscricao.passo.executar mundo).sessao ↔ topico ∈ mundo.sessao ∨
      ∃ data, inscricao.2 = .concluida (.onSuccess data) ∧
        topico ∈ concedidos inscricao.1 data := by
  obtain ⟨args, resposta⟩ := inscricao
  cases resposta with
  | rejeitada ret erro => simp [Inscricao.passo, Passo.executar, sessaoAposChamada]
  | concluida res =>
      cases res <;>
        simp [Inscricao.passo, Passo.executar, sessaoAposChamada, emite, nonempty, sessaoApos]

/-- A call without topics does nothing. -/
theorem passo_of_sem_topicos (empty : inscricao.1.topicos = []) :
    inscricao.passo.executar mundo = mundo := by
  obtain ⟨args, resposta⟩ := inscricao
  change args.topicos = [] at empty
  have unchanged : executar (.subscribe args) resposta mundo.cliente = (mundo.cliente, false) := by
    simp only [executar, Subscribe.executar, empty, List.isEmpty_nil, if_true]
  cases resposta <;>
    simp [Inscricao.passo, Passo.executar, sessaoAposChamada, emite, unchanged, empty]

/-- A call that is granted in full registers every topic that it adds. -/
theorem semOrfaos_of_concedida {data : SuccessData} (nonempty : inscricao.1.topicos ≠ [])
    (answered : inscricao.2 = .concluida (.onSuccess data))
    (granted : Subscribe.recusado inscricao.1 data = false) (antes : SemOrfaos mundo) :
    SemOrfaos (inscricao.passo.executar mundo) := by
  have success : (Operation.subscribe inscricao.1).outcome (.onSuccess data) = true := by
    rw [Operation.outcome, granted]
    rfl
  intro topico held
  have kept : (inscricao.passo.executar mundo).cliente.callbackMap topico ≠ none ↔
      topico ∈ inscricao.1.topicos ∨ mundo.cliente.callbackMap topico ≠ none := by
    rw [← isSome_of_concedida nonempty success, ← answered]
    rfl
  rw [kept]
  rcases (sessao_of_passo nonempty topico).mp held with before | ⟨other, same, added⟩
  · exact Or.inr (antes topico before)
  · exact Or.inl (mem_topicos_of_concedidos added)

/-- A call that is not granted in full leaves no entry for its topics and keeps
the others, so what the broker holds of its topics is orphaned. -/
theorem semOrfaos_iff_of_recusada (nonempty : inscricao.1.topicos ≠ [])
    (refused : ∀ res, inscricao.2 = .concluida res →
      (Operation.subscribe inscricao.1).outcome res = false) (antes : SemOrfaos mundo) :
    SemOrfaos (inscricao.passo.executar mundo) ↔
      ∀ topico ∈ inscricao.1.topicos, topico ∉ (inscricao.passo.executar mundo).sessao := by
  constructor
  · intro covered topico named held
    apply covered topico held
    exact callbackMap_of_recusada named refused
  · intro absent topico held
    have unnamed : topico ∉ inscricao.1.topicos := fun named => absent topico named held
    rcases (sessao_of_passo nonempty topico).mp held with before | ⟨data, same, added⟩
    · have unchanged : (inscricao.passo.executar mundo).cliente.callbackMap topico =
          mundo.cliente.callbackMap topico :=
        executar_of_not_mem inscricao.2 mundo.cliente unnamed
      rw [unchanged]
      exact antes topico before
    · exact absurd (mem_topicos_of_concedidos added) unnamed

/-- One call keeps the agreement exactly when it is safe in the session before
it. -/
theorem semOrfaos_iff_segura (inscricao : Inscricao) (antes : SemOrfaos mundo) :
    SemOrfaos (inscricao.passo.executar mundo) ↔ inscricao.Segura mundo.sessao := by
  by_cases empty : inscricao.1.topicos = []
  · rw [passo_of_sem_topicos empty]
    simp [Inscricao.Segura, empty, antes]
  · by_cases full : ∃ data, inscricao.2 = .concluida (.onSuccess data) ∧
        Subscribe.recusado inscricao.1 data = false
    · obtain ⟨data, answered, granted⟩ := full
      exact iff_of_true (semOrfaos_of_concedida empty answered granted antes)
        (Or.inl ⟨data, answered, granted⟩)
    · have refused : ∀ res, inscricao.2 = .concluida res →
          (Operation.subscribe inscricao.1).outcome res = false := by
        intro res answered
        cases res with
        | onFailure res => rfl
        | onSuccess data =>
            rw [Operation.outcome, Bool.not_eq_false']
            by_contra granted
            exact full ⟨data, answered, by simpa using granted⟩
      rw [semOrfaos_iff_of_recusada empty refused antes, Inscricao.Segura, or_iff_right full]
      simp only [sessao_of_passo empty, not_or, not_exists, not_and]

end Step

theorem inscrever_concat (conectado : Bool) (antes : List Inscricao) (inscricao : Inscricao) :
    inscrever conectado (antes ++ [inscricao]) =
      inscricao.passo.executar (inscrever conectado antes) := by
  rw [inscrever, List.map_append, List.map_singleton, executarPassos_concat, inscrever]

/-- After every call of a history each filter that the broker holds has an entry
in the table, exactly when every call is safe in the session that it finds. -/
theorem no_orphan_iff_calls_safe (conectado : Bool) (inscricoes : List Inscricao) :
    (∀ antes inscricao depois, inscricoes = antes ++ inscricao :: depois →
        SemOrfaos (inscrever conectado (antes ++ [inscricao]))) ↔
      ∀ antes inscricao depois, inscricoes = antes ++ inscricao :: depois →
        inscricao.Segura (inscrever conectado antes).sessao := by
  constructor
  · intro covered antes inscricao depois split
    have before : SemOrfaos (inscrever conectado antes) := by
      cases antes using List.reverseRecOn with
      | nil => exact semOrfaos_vazio conectado
      | append_singleton antes anterior =>
          apply covered antes anterior (inscricao :: depois)
          rw [split, List.append_assoc, List.singleton_append]
    rw [← semOrfaos_iff_segura inscricao before, ← inscrever_concat]
    exact covered antes inscricao depois split
  · intro safe antes inscricao depois split
    apply split_induction (fun feitas => SemOrfaos (inscrever conectado feitas))
    · exact semOrfaos_vazio conectado
    · intro feitas ultima restantes here covered
      rw [inscrever_concat, semOrfaos_iff_segura ultima covered]
      apply safe feitas ultima (restantes ++ depois)
      rw [split, ← List.cons_append, ← List.append_assoc, ← here, List.append_assoc,
        List.singleton_append]

/-- The first topic is granted and the second refused. -/
def concessaoParcial : Inscricao :=
  (doisTopicos, .concluida (.onSuccess ⟨0, [1, 0x80], 0⟩))

/-- After a grant in part the broker holds a filter without a callback. -/
theorem orphan_after_partial_grant :
    ¬ ∀ (conectado : Bool) (inscricoes antes depois : List Inscricao) (inscricao : Inscricao),
      inscricoes = antes ++ inscricao :: depois →
        SemOrfaos (inscrever conectado (antes ++ [inscricao])) := by
  intro covered
  have entry := covered true [concessaoParcial] [] [] concessaoParcial rfl [97] (by decide)
  apply entry
  decide

end PahoClient
