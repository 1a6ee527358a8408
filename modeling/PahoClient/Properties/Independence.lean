import PahoClient.Client.Sequential

/-!
# Calls on disjoint topics

The subscribe and unsubscribe calls of a family whose topic lists are pairwise
disjoint are compared with their sequential execution: every interleaving ends
with the table and the returned values of running the calls one after another.
-/

namespace PahoClient

open PahoClient.Transition
open PahoClient.Store

/-- The library gives every subscribe and unsubscribe command its fixed
answer. -/
def Follows (program : Program) (resposta : CallId → Resposta) (event : Event State Label) :
    Prop :=
  (∀ c ret, event.label = .call c ret → event.source.pc c = .command →
    (program.op c).usesConexao = false →
      match resposta c with
      | .rejeitada code _ => ret = code
      | .concluida _ => ret = MQTTASYNC_SUCCESS) ∧
  ∀ c res, event.label = .complete c res → (program.op c).usesConexao = false →
    resposta c = .concluida res

/-- The calls of a list run one after another, each with its answer; the second
component lists what they return. -/
def emSequencia (program : Program) (resposta : CallId → Resposta) :
    List CallId → Cliente → Cliente × List (CallId × Bool)
  | [], cliente => (cliente, [])
  | c :: calls, cliente =>
      let primeira := executar (program.op c) (resposta c) cliente
      let resto := emSequencia program resposta calls primeira.1
      (resto.1, (c, primeira.2) :: resto.2)

/-- No topic is named by two calls of the list. -/
def TopicsDisjoint (program : Program) (calls : List CallId) : Prop :=
  ∀ c ∈ calls, ∀ d ∈ calls, c ≠ d →
    ∀ topico ∈ (program.op c).topicos, topico ∉ (program.op d).topicos

section Sequences

variable {program : Program} {resposta : CallId → Resposta}

theorem emSequencia_of_unnamed {calls : List CallId} (cliente : Cliente) {topico : StdString}
    (unnamed : ∀ c ∈ calls, topico ∉ (program.op c).topicos) :
    (emSequencia program resposta calls cliente).1.callbackMap topico =
      cliente.callbackMap topico := by
  induction calls generalizing cliente with
  | nil => rfl
  | cons c calls ih =>
      obtain ⟨first, rest⟩ := List.forall_mem_cons.mp unnamed
      rw [emSequencia, ih _ rest, executar_of_not_mem _ _ first]

/-- In a sequence of calls on disjoint topics each call acts on its topics as if
it were alone. -/
theorem emSequencia_of_named {calls : List CallId} (distinct : calls.Nodup)
    (disjoint : TopicsDisjoint program calls) (cliente : Cliente) {c : CallId} (member : c ∈ calls)
    {topico : StdString} (named : topico ∈ (program.op c).topicos) :
    (emSequencia program resposta calls cliente).1.callbackMap topico =
      (executar (program.op c) (resposta c) cliente).1.callbackMap topico := by
  induction calls generalizing cliente with
  | nil => cases member
  | cons d calls ih =>
      obtain ⟨fresh, distinct⟩ := List.nodup_cons.mp distinct
      have narrower : TopicsDisjoint program calls := by
        intro first firstMember second secondMember
        exact disjoint first (List.mem_cons_of_mem _ firstMember) second
          (List.mem_cons_of_mem _ secondMember)
      rw [emSequencia]
      rcases List.mem_cons.mp member with rfl | inside
      · apply emSequencia_of_unnamed
        intro other otherMember
        apply disjoint c List.mem_cons_self other (List.mem_cons_of_mem _ otherMember)
        · rintro rfl
          exact fresh otherMember
        · exact named
      · have other : c ≠ d := by
          rintro rfl
          exact fresh inside
        rw [ih distinct narrower _ inside]
        apply executar_congr
        exact executar_of_not_mem _ _
          (disjoint c member d List.mem_cons_self other topico named)

/-- When the value of each call does not depend on the client, a sequence
returns these values in order. -/
theorem emSequencia_values {calls : List CallId} (cliente : Cliente) {value : CallId → Bool}
    (fixed : ∀ c ∈ calls, ∀ cliente,
      (executar (program.op c) (resposta c) cliente).2 = value c) :
    (emSequencia program resposta calls cliente).2 = calls.map fun c => (c, value c) := by
  induction calls generalizing cliente with
  | nil => rfl
  | cons c calls ih =>
      obtain ⟨first, rest⟩ := List.forall_mem_cons.mp fixed
      rw [emSequencia, List.map_cons, ih _ rest, first]

end Sequences

section Runs

variable {program : Program} {resposta : CallId → Resposta} {s : State}
  {callbackMap : CallbackMap} {conectado : Bool} {history : List (Event State Label)}

/-- What the library has done with a command is part of its fixed answer. -/
theorem replied_of_run
    (run : Run (step program) (initial callbackMap conectado) history s)
    (follows : ∀ event ∈ history, Follows program resposta event) {c : CallId}
    (uses : (program.op c).usesConexao = false) : Replied (resposta c) (s.request c) := by
  induction run with
  | refl => trivial
  | @tail history source target label run executed ih =>
      obtain ⟨⟨issues, completes⟩, older⟩ := List.forall_mem_cons.mp follows
      have before := ih older
      rcases request_cases executed c with same | ⟨ret, labelEq, pc, issued⟩ |
        ⟨res, labelEq, pending, _, ready⟩ | ⟨res, _, ready, running⟩ |
        ⟨res, pc, _, running, next⟩
      · rw [same]
        exact before
      · have answer := issues c ret labelEq pc uses
        rw [issued]
        cases fixed : resposta c with
        | rejeitada code erro =>
            simp only [fixed] at answer
            subst code
            rw [if_neg erro]
            exact ⟨erro, rfl⟩
        | concluida res =>
            simp only [fixed] at answer
            rw [if_pos answer]
            exact ⟨res, rfl⟩
      · rw [ready]
        exact completes c res labelEq uses
      · rw [ready] at before
        rw [running]
        exact before
      · rw [running] at before
        rw [next]
        cases pc <;> exact before

/-- The value with which a call has returned. -/
def Pc.value : Pc → Bool
  | returned value => value
  | _ => false

/-- A returned call returns what its big-step meaning returns, whatever the
table. -/
theorem executar_value_of_run
    (run : Run (step program) (initial callbackMap conectado) history s)
    (follows : ∀ event ∈ history, Follows program resposta event) {c : CallId}
    (uses : (program.op c).usesConexao = false) {value : Bool}
    (returned : s.pc c = .returned value) (cliente : Cliente) :
    (executar (program.op c) (resposta c) cliente).2 = value := by
  have progress := (Inv.of_run run).progress c
  have enters := entered_of_run run (inv_initial program callbackMap conectado) (c := c) rfl
  rw [returned] at progress enters
  exact executar_value cliente uses progress enters (replied_of_run run follows uses)

/-- Idle calls have made no update. -/
theorem author_mem_of_updates
    (run : Run (step program) (initial callbackMap conectado) history s) {calls : List CallId}
    (others : ∀ c, c ∉ calls → (program.op c).usesConexao = false → s.pc c = .idle)
    {d : CallId} {update : Edit StdString Callback}
    (member : (d, update) ∈ updates program history) {topico : StdString}
    (named : topico ∈ update.keys) : d ∈ calls := by
  by_contra outside
  have uses : (program.op d).usesConexao = false := by
    obtain ⟨_, _, laco, _, rfl⟩ := exists_loop_of_mem_updates member
    have topicos := mem_topicos_of_mem_keys named
    cases op : program.op d with
    | subscribe | unsubscribe => rfl
    | conectar | desconectar =>
        rw [op] at topicos
        cases topicos
  have loops := lacosAt_of_run run (inv_initial program callbackMap conectado) d
  rw [others d outside uses, lacosAt_idle] at loops
  have quiet : lacosBy program d history = [] := (List.append_eq_nil_iff.mp loops.symm).1
  exact author_ne_of_lacosBy_eq_nil quiet member rfl

/-- A topic that no call of the family names keeps its entry. -/
theorem callbackMap_of_unnamed
    (run : Run (step program) (initial callbackMap conectado) history s) {calls : List CallId}
    (others : ∀ c, c ∉ calls → (program.op c).usesConexao = false → s.pc c = .idle)
    {topico : StdString} (unnamed : ∀ c ∈ calls, topico ∉ (program.op c).topicos) :
    s.callbackMap topico = callbackMap topico := by
  rw [callbackMap_of_run run]
  apply Log.replay_of_unnamed
  rintro ⟨d, update⟩ member named
  have author := author_mem_of_updates run others member named
  obtain ⟨_, _, laco, _, rfl⟩ := exists_loop_of_mem_updates member
  exact unnamed d author (mem_topicos_of_mem_keys named)

/-- A topic of one call of the family is updated by that call only. -/
theorem author_of_disjoint
    (run : Run (step program) (initial callbackMap conectado) history s) {calls : List CallId}
    (disjoint : TopicsDisjoint program calls)
    (others : ∀ c, c ∉ calls → (program.op c).usesConexao = false → s.pc c = .idle)
    {c : CallId} (member : c ∈ calls) {topico : StdString}
    (named : topico ∈ (program.op c).topicos) {d : CallId} {update : Edit StdString Callback}
    (inLog : (d, update) ∈ updates program history) (inKeys : topico ∈ update.keys) : d = c := by
  have author := author_mem_of_updates run others inLog inKeys
  obtain ⟨_, _, laco, _, rfl⟩ := exists_loop_of_mem_updates inLog
  by_contra different
  exact disjoint d author c member different topico (mem_topicos_of_mem_keys inKeys) named

/-- Every interleaving of subscribe and unsubscribe calls on pairwise disjoint
topics ends with the table and the values of running the calls one after
another in any order, and leaves all other entries alone. -/
theorem disjoint_calls_independent (program : Program) (callbackMap : CallbackMap)
    (conectado : Bool) (history : List (Event State Label)) (s : State) (calls : List CallId)
    (resposta : CallId → Resposta)
    (run : Run (step program) (initial callbackMap conectado) history s)
    (distinct : calls.Nodup) (disjoint : TopicsDisjoint program calls)
    (kind : ∀ c ∈ calls, (program.op c).usesConexao = false)
    (others : ∀ c, c ∉ calls → (program.op c).usesConexao = false → s.pc c = .idle)
    (finished : ∀ c ∈ calls, ∃ value, s.pc c = .returned value)
    (follows : ∀ event ∈ history, Follows program resposta event) :
    (∀ order, order.Perm calls →
      s.callbackMap = (emSequencia program resposta order ⟨callbackMap, conectado⟩).1.callbackMap ∧
      ∀ c value, (c, value) ∈ (emSequencia program resposta order ⟨callbackMap, conectado⟩).2 ↔
        c ∈ calls ∧ s.pc c = .returned value) ∧
    ∀ topico, (∀ c ∈ calls, topico ∉ (program.op c).topicos) →
      s.callbackMap topico = callbackMap topico := by
  refine ⟨?_, fun topico => callbackMap_of_unnamed run others⟩
  intro order permuted
  have orderDisjoint : TopicsDisjoint program order := by
    intro c cMember d dMember
    exact disjoint c (permuted.mem_iff.mp cMember) d (permuted.mem_iff.mp dMember)
  constructor
  · funext topico
    by_cases named : ∃ c ∈ calls, topico ∈ (program.op c).topicos
    · obtain ⟨c, member, named⟩ := named
      obtain ⟨value, returned⟩ := finished c member
      rw [emSequencia_of_named (permuted.nodup_iff.mpr distinct) orderDisjoint _
        (permuted.mem_iff.mpr member) named]
      have replied := replied_of_run run follows (kind c member)
      apply executar_of_alone run (inv_initial program callbackMap conectado) rfl returned replied
        _ rfl
      intro d update inLog inKeys
      exact author_of_disjoint run disjoint others member named inLog inKeys
    · have unnamed : ∀ c ∈ calls, topico ∉ (program.op c).topicos :=
        fun c member inTopicos => named ⟨c, member, inTopicos⟩
      rw [callbackMap_of_unnamed run others unnamed, emSequencia_of_unnamed]
      intro c member
      exact unnamed c (permuted.mem_iff.mp member)
  · intro c value
    have fixed : ∀ d ∈ order, ∀ cliente,
        (executar (program.op d) (resposta d) cliente).2 = (s.pc d).value := by
      intro d member cliente
      have inCalls := permuted.mem_iff.mp member
      obtain ⟨result, returned⟩ := finished d inCalls
      rw [executar_value_of_run run follows (kind d inCalls) returned cliente, returned]
      rfl
    rw [emSequencia_values _ fixed, List.mem_map]
    constructor
    · rintro ⟨d, member, equal⟩
      cases equal
      have inCalls := permuted.mem_iff.mp member
      obtain ⟨result, returned⟩ := finished c inCalls
      rw [returned]
      exact ⟨inCalls, rfl⟩
    · rintro ⟨member, returned⟩
      refine ⟨c, permuted.mem_iff.mpr member, ?_⟩
      rw [returned]
      rfl

end Runs

/-- A subscribe call for one topic and an unsubscribe call for another. -/
def programaDisjunto : Program where
  op c := if c = 0 then .subscribe (.ofPairs [([97], ⟨1⟩)])
    else if c = 1 then .unsubscribe [[98]] else .conectar
  topico _ := []

/-- The subscription is refused and the unsubscription succeeds. -/
def respostaDisjunta (c : CallId) : Resposta :=
  if c = 0 then .concluida (.onSuccess ⟨0x80, [], 0⟩) else .concluida (.onSuccess ⟨0, [], 0⟩)

/-- The handler of the subscription runs between the steps of the
unsubscription. -/
def chamadasDisjuntas : List Label :=
  [.start 0, .start 1, .call 0 0, .call 0 0, .call 0 0, .call 0 0, .call 1 0, .call 0 0,
    .complete 0 (.onSuccess ⟨0x80, [], 0⟩), .deliver 0, .handler 0, .handler 0, .handler 0,
    .handler 0, .call 1 0, .call 1 0, .call 1 0, .handler 0, .handler 0, .handler 0,
    .handler 0, .handler 0, .call 0 0, .call 0 0, .call 0 0,
    .complete 1 (.onSuccess ⟨0, [], 0⟩), .deliver 1, .handler 1, .handler 1, .handler 1,
    .handler 1, .handler 1, .handler 1, .call 1 0, .call 1 0, .call 1 0]

theorem disjoint_calls_independent_interleaved :
    ∃ history s, Run (step programaDisjunto) (initial (fun _ => some ⟨7⟩) true) history s ∧
      s.pc 0 = .returned false ∧ s.pc 1 = .returned true ∧
      s.callbackMap = (emSequencia programaDisjunto respostaDisjunta [1, 0]
        ⟨fun _ => some ⟨7⟩, true⟩).1.callbackMap := by
  obtain ⟨s, run, final⟩ := exists_run_of_execute (step programaDisjunto)
    (initial (fun _ => some ⟨7⟩) true) chamadasDisjuntas (fun s => (s.pc 0, s.pc 1))
    (.returned false, .returned true) (by decide)
  have answers := forall_mem_eventsOf (step programaDisjunto)
    (initial (fun _ => some ⟨7⟩) true) chamadasDisjuntas (fun event => match event.label with
      | .call c ret => event.source.pc c != .command || ret == MQTTASYNC_SUCCESS
      | .complete c res => (c == 0 && res == .onSuccess ⟨0x80, [], 0⟩) ||
          (c == 1 && res == .onSuccess ⟨0, [], 0⟩)
      | _ => true) (by decide)
  rw [Prod.mk.injEq] at final
  have independent := disjoint_calls_independent programaDisjunto (fun _ => some ⟨7⟩) true _ s
    [0, 1] respostaDisjunta run (by decide) (by unfold TopicsDisjoint; decide) (by decide)
    (fun c outside uses => by
      have zero : c ≠ 0 := by rintro rfl; simp at outside
      have one : c ≠ 1 := by rintro rfl; simp at outside
      simp [programaDisjunto, zero, one, Operation.usesConexao] at uses)
    (fun c member => by
      rcases List.mem_cons.mp member with rfl | member
      · exact ⟨_, final.1⟩
      · rw [List.mem_singleton.mp member]
        exact ⟨_, final.2⟩)
    (fun event member => by
      have answer := answers event member
      constructor
      · intro c ret labelEq pc _
        simp only [labelEq, pc] at answer
        have accepted : ret = MQTTASYNC_SUCCESS := by simpa using answer
        have fixed : ∃ res, respostaDisjunta c = .concluida res := by
          unfold respostaDisjunta
          split <;> exact ⟨_, rfl⟩
        obtain ⟨res, fixed⟩ := fixed
        rw [fixed]
        exact accepted
      · intro c res labelEq _
        simp only [labelEq, Bool.or_eq_true, Bool.and_eq_true, beq_iff_eq] at answer
        rcases answer with ⟨rfl, rfl⟩ | ⟨rfl, rfl⟩ <;> rfl)
  exact ⟨_, s, run, final.1, final.2, (independent.1 [1, 0] (by decide)).1⟩

end PahoClient
