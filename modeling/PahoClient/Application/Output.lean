import PahoClient.Application.Registrations
import PahoClient.Properties.Provenance

/-!
# What `mqtt-test` prints

The callbacks run on the library's thread, at any moment of the calls of `main`.
What they print is nevertheless one line for each message whose topic was
subscribed when `mensagemRecebida` of the client looked it up.
-/

namespace PahoClient.MqttTest

open PahoClient.Transition
open PahoClient.Store

/-! ## The lines -/

/-- The key under which the client looks the topic of a message up. -/
def Mensagens.chave (mensagens : Mensagens) (m : MsgId) : StdString :=
  StdString.ofCString (mensagens.topico m)

/-- The line for a message: half of the payload for the second topic, the whole
payload for the others. -/
def linha (mensagens : Mensagens) (m : MsgId) : StdString :=
  if mensagens.chave m = topic2 then
    mensagemTruncada.texto (mensagens.topico m) (mensagens.payload m)
  else mensagemRecebida.texto (mensagens.topico m) (mensagens.payload m)

/-- The message whose callback an event runs. -/
def impressa (event : Event Processo Rotulo) : Option MsgId :=
  match event.label with
  | .cliente (.message m _) =>
      if (event.source.client.delivery m).pc = .inside then some m else none
  | _ => none

/-- The messages whose callbacks have run, newest first. -/
def impressas (history : List (Event Processo Rotulo)) : List MsgId :=
  history.filterMap impressa

/-- The run of `mensagemRecebida` has left the call of its callback behind. -/
def chamou : MessagePc → Bool
  | .test | .freeMessage | .free | .finished => true
  | .idle | .acquire | .lookup | .release | .call | .inside => false

/-- The lines on `std::cout` are those of the messages whose callbacks have run,
each of them once: the messages of runs that found a callback and have left its
call behind. -/
structure Impressao (mensagens : Mensagens) (history : List (Event Processo Rotulo))
    (p : Processo) : Prop where
  cout : p.cout = (impressas history).map (linha mensagens)
  distintas : (impressas history).Nodup
  inscritas : ∀ m ∈ impressas history, mensagens.chave m ∈ inscricao.topicos
  chamadas : ∀ m, m ∈ impressas history ↔
    chamou (p.client.delivery m).pc = true ∧
      (p.client.delivery m).callback ≠ Callback.null

/-! ## The subscribed topics -/

theorem literal_injective {first second : String} (same : literal first = literal second) :
    first = second := by
  have bytes : first.toUTF8.data = second.toUTF8.data := Array.toList_inj.mp same
  exact String.toByteArray_inj.mp (congrArg ByteArray.mk bytes)

theorem topic1_ne_topic2 : topic1 ≠ topic2 := by
  intro same
  exact absurd (literal_injective same) (by decide)

theorem topic3_ne_topic2 : topic3 ≠ topic2 := by
  intro same
  exact absurd (literal_injective same) (by decide)

/-- A subscribed topic has the callback of its line. -/
theorem callback_of_todas {topico : StdString} {callback : Callback}
    (present : todas topico = some callback) :
    topico ∈ inscricao.topicos ∧
      callback = if topico = topic2 then mensagemTruncada else mensagemRecebida := by
  rw [todas, Subscribe.inserir, Table.insertAll_of_absent _ rfl, lookup_zip_eq_some_iff] at present
  obtain ⟨i, topicoAt, callbackAt, _⟩ := present
  refine ⟨List.mem_of_getElem? topicoAt, ?_⟩
  rcases i with _ | _ | _ | i
  · cases topicoAt
    cases callbackAt
    rw [if_neg topic1_ne_topic2]
  · cases topicoAt
    cases callbackAt
    rw [if_pos rfl]
  · cases topicoAt
    cases callbackAt
    rw [if_neg topic3_ne_topic2]
  · cases topicoAt

theorem texto_of_todas {mensagens : Mensagens} {m : MsgId} {callback : Callback}
    (present : todas (mensagens.chave m) = some callback) :
    texto callback (mensagens.topico m) (mensagens.payload m) = [linha mensagens m] := by
  obtain ⟨_, rfl⟩ := callback_of_todas present
  rw [linha]
  split
  · rfl
  · rfl

theorem inscricao_of_subscribe {mensagens : Mensagens} {c : CallId} {args : Subscribe.Args}
    (op : (programa mensagens).op c = .subscribe args) : args = inscricao := by
  simp only [programa] at op
  split at op <;> cases op
  rfl

section Steps

variable {mensagens : Mensagens} {p q : Processo} {history : List (Event Processo Rotulo)}

/-- The table never holds anything but the subscriptions of the program. -/
theorem todas_of_run (run : Run (processo mensagens) inicio history p) {topico : StdString}
    {callback : Callback} (present : p.client.callbackMap topico = some callback) :
    todas topico = some callback := by
  obtain ⟨clientHistory, clientRun, _⟩ := cliente_of_run run
  have plain := clientRun.mono fun _ _ _ step => step_of_serialStep step
  rcases (entry_iff_registration plain).mp present with ⟨impossible, _⟩ |
    ⟨_, insertion, _, _, ⟨_, c, args, op, _, offers⟩, _⟩
  · cases impossible
  · cases inscricao_of_subscribe op
    rw [todas, Subscribe.inserir, Table.insertAll_of_absent _ rfl, lookup_zip_eq_some_iff]
    exact offers

/-! ## The runs of `mensagemRecebida` -/

/-- A run holds nothing or the callback of its subscribed topic, and enters the
call only when it holds one. -/
structure Copia (mensagens : Mensagens) (delivery : MsgId → Delivery) : Prop where
  inscrita : ∀ m, (delivery m).callback ≠ Callback.null →
    todas (mensagens.chave m) = some (delivery m).callback
  dentro : ∀ m, (delivery m).pc = .inside → (delivery m).callback ≠ Callback.null

/-- A statement of a run takes a new copy at the lookup only, and enters the call
only with a copy. -/
theorem messageNext_copia (chave : StdString) (map : CallbackMap) (ret : Int)
    (delivery : Delivery) :
    ((messageNext chave map ret delivery).callback = delivery.callback ∨
      delivery.pc = .lookup ∧
        (messageNext chave map ret delivery).callback = (map chave).getD Callback.null) ∧
    ((messageNext chave map ret delivery).pc = .inside →
      delivery.callback ≠ Callback.null ∧
        (messageNext chave map ret delivery).callback = delivery.callback) := by
  cases pc : delivery.pc with
  | call => by_cases null : delivery.callback = Callback.null <;> simp [messageNext, pc, null]
  | test => by_cases frees : delivery.ret = 1 <;> simp [messageNext, pc, frees]
  | _ => simp [messageNext, pc]

theorem copia_step {s t : State} {label : Label} (copia : Copia mensagens s.delivery)
    (subscribed : ∀ topico callback, s.callbackMap topico = some callback →
      todas topico = some callback)
    (executed : step (programa mensagens) s label = some t) : Copia mensagens t.delivery := by
  have each : ∀ m,
      ((t.delivery m).callback ≠ Callback.null →
        todas (mensagens.chave m) = some (t.delivery m).callback) ∧
      ((t.delivery m).pc = .inside → (t.delivery m).callback ≠ Callback.null) := by
    intro m
    rcases delivery_cases executed m with ⟨same, _⟩ | ⟨_, _, moved⟩ | ⟨ret, rfl, moved⟩
    · rw [same]
      exact ⟨copia.inscrita m, copia.dentro m⟩
    · rw [moved]
      exact ⟨copia.inscrita m, fun inside => by cases inside⟩
    · obtain ⟨kept, enters⟩ := messageNext_copia ((programa mensagens).chave m) s.callbackMap ret
        (s.delivery m)
      rw [moved]
      constructor
      · intro nonNull
        rcases kept with same | ⟨_, found⟩
        · rw [same] at nonNull ⊢
          exact copia.inscrita m nonNull
        · rw [found] at nonNull ⊢
          cases present : s.callbackMap ((programa mensagens).chave m) with
          | none => exact absurd (by rw [present]; rfl) nonNull
          | some callback => exact subscribed _ _ present
      · intro inside
        obtain ⟨nonNull, same⟩ := enters inside
        rw [same]
        exact nonNull
  exact ⟨fun m => (each m).1, fun m => (each m).2⟩

/-- Between two statements of the thread the runs of `mensagemRecebida` stay
where they are. -/
theorem delivery_of_proximo (executed : proximo mensagens p = some q) :
    q.client.delivery = p.client.delivery ∧ q.cout = p.cout := by
  cases passo_of_proximo executed with
  | testa | destroi | chama | retorna => exact ⟨rfl, rfl⟩

theorem copia_of_run (run : Run (processo mensagens) inicio history p) :
    Copia mensagens p.client.delivery := by
  induction run with
  | refl =>
      constructor
      · intro m nonNull
        exact absurd rfl nonNull
      · intro m inside
        cases inside
  | @tail history source target label earlier executed ih =>
      cases label with
      | principal =>
          rw [(delivery_of_proximo executed).1]
          exact ih
      | cliente label =>
          obtain ⟨_, client, step, rfl⟩ := processo_cliente executed
          exact copia_step ih (fun _ _ present => todas_of_run earlier present)
            (step_of_serialStep step)

/-! ## Printing -/

/-- A run leaves the call of its callback behind by executing it, or by skipping
it for want of a copy. -/
theorem chamou_messageNext (chave : StdString) (map : CallbackMap) (ret : Int)
    (delivery : Delivery) :
    (chamou (messageNext chave map ret delivery).pc = true ∧
        (messageNext chave map ret delivery).callback ≠ Callback.null) ↔
      (chamou delivery.pc = true ∧ delivery.callback ≠ Callback.null) ∨
        delivery.pc = .inside ∧ delivery.callback ≠ Callback.null := by
  cases pc : delivery.pc with
  | call =>
      by_cases null : delivery.callback = Callback.null <;>
        simp [messageNext, pc, null, chamou]
  | test => by_cases frees : delivery.ret = 1 <;> simp [messageNext, pc, frees, chamou]
  | _ => simp [messageNext, pc, chamou]

theorem chamou_step {s t : State} {label : Label}
    (executed : step (programa mensagens) s label = some t) (m : MsgId) :
    (chamou (t.delivery m).pc = true ∧ (t.delivery m).callback ≠ Callback.null) ↔
      (chamou (s.delivery m).pc = true ∧ (s.delivery m).callback ≠ Callback.null) ∨
        (∃ ret, label = .message m ret) ∧ (s.delivery m).pc = .inside ∧
          (s.delivery m).callback ≠ Callback.null := by
  rcases delivery_cases executed m with ⟨same, other⟩ | ⟨rfl, idle, moved⟩ | ⟨ret, rfl, moved⟩
  · rw [same]
    constructor
    · exact Or.inl
    · rintro (before | ⟨⟨ret, equal⟩, _⟩)
      · exact before
      · exact absurd equal (other ret)
  · rw [moved, idle]
    simp [chamou]
  · rw [moved, chamou_messageNext]
    simp

/-- An event runs the callback of a message when it executes its call. -/
theorem impressa_eq_some_iff {event : Event Processo Rotulo} {m : MsgId} :
    impressa event = some m ↔
      (∃ ret, event.label = .cliente (.message m ret)) ∧
        (event.source.client.delivery m).pc = .inside := by
  obtain ⟨source, label, target⟩ := event
  cases label with
  | principal => simp [impressa]
  | cliente label =>
      cases label with
      | message n ret =>
          simp only [impressa]
          constructor
          · intro found
            split at found
            · rename_i inside
              cases found
              exact ⟨⟨ret, rfl⟩, inside⟩
            · cases found
          · rintro ⟨⟨_, equal⟩, inside⟩
            cases equal
            rw [if_pos inside]
      | _ => simp [impressa]

/-- A step of the client writes the line of the message whose callback it
runs. -/
theorem escreve_eq {label : Label} (copia : Copia mensagens p.client.delivery) :
    escreve mensagens p.client label =
      (impressa ⟨p, .cliente label, q⟩).toList.map (linha mensagens) := by
  cases label with
  | message m ret =>
      simp only [escreve, impressa]
      split
      · rename_i inside
        exact texto_of_todas (copia.inscrita m (copia.dentro m inside))
      · rfl
  | _ => rfl

/-- A step prints the message it is about and leaves the others alone. -/
theorem Impressao.step (impressao : Impressao mensagens history p)
    (copia : Copia mensagens p.client.delivery) {rotulo : Rotulo}
    (cout : q.cout = (impressa ⟨p, rotulo, q⟩).toList.map (linha mensagens) ++ p.cout)
    (called : ∀ m, (chamou (q.client.delivery m).pc = true ∧
        (q.client.delivery m).callback ≠ Callback.null) ↔
      (chamou (p.client.delivery m).pc = true ∧
        (p.client.delivery m).callback ≠ Callback.null) ∨
          impressa ⟨p, rotulo, q⟩ = some m) :
    Impressao mensagens (⟨p, rotulo, q⟩ :: history) q := by
  cases printed : impressa ⟨p, rotulo, q⟩ with
  | none =>
      have same : impressas (⟨p, rotulo, q⟩ :: history) = impressas history := by
        rw [impressas, List.filterMap_cons_none printed, impressas]
      constructor
      · rw [same, cout, printed, impressao.cout]
        rfl
      · rw [same]
        exact impressao.distintas
      · rw [same]
        exact impressao.inscritas
      · intro m
        rw [same, impressao.chamadas, called, printed]
        simp
  | some n =>
      have longer : impressas (⟨p, rotulo, q⟩ :: history) = n :: impressas history := by
        rw [impressas, List.filterMap_cons_some printed, impressas]
      obtain ⟨_, inside⟩ := impressa_eq_some_iff.mp printed
      have fresh : n ∉ impressas history := by
        intro member
        have past := ((impressao.chamadas n).mp member).1
        dsimp only at inside
        rw [inside] at past
        cases past
      constructor
      · rw [longer, cout, printed, impressao.cout]
        rfl
      · rw [longer]
        exact List.nodup_cons.mpr ⟨fresh, impressao.distintas⟩
      · rw [longer]
        intro m member
        rcases List.mem_cons.mp member with rfl | member
        · exact (callback_of_todas (copia.inscrita m (copia.dentro m inside))).1
        · exact impressao.inscritas m member
      · intro m
        rw [longer, List.mem_cons, impressao.chamadas, called, printed, Option.some.injEq, or_comm,
          @eq_comm _ n m]

end Steps

/-- What the callbacks print while `main` goes through its rounds: one line for
each message whose run of `mensagemRecebida` found a callback and has called it,
in the order of these calls, with the whole payload for the first and third topic
and half of it for the second.  No other topic is ever printed, and no message
twice. -/
theorem one_line_per_message (mensagens : Mensagens) {history : List (Event Processo Rotulo)}
    {p : Processo} (run : Run (processo mensagens) inicio history p) :
    Impressao mensagens history p := by
  induction run with
  | refl =>
      constructor
      · rfl
      · exact List.nodup_nil
      · intro m member
        cases member
      · intro m
        constructor
        · intro member
          cases member
        · rintro ⟨called, _⟩
          cases called
  | @tail history source target label earlier executed ih =>
      have copia := copia_of_run earlier
      cases label with
      | principal =>
          obtain ⟨delivery, cout⟩ := delivery_of_proximo executed
          apply ih.step copia
          · exact cout
          · intro m
            rw [delivery]
            simp [impressa]
      | cliente label =>
          obtain ⟨_, client, step, rfl⟩ := processo_cliente executed
          apply ih.step copia
          · exact congrArg (· ++ source.cout) (escreve_eq copia)
          · intro m
            dsimp only
            rw [chamou_step (step_of_serialStep step) m, impressa_eq_some_iff]
            have nonNull := copia.dentro m
            simp only [Rotulo.cliente.injEq]
            tauto

/-- A message on the second topic, and messages on no subscribed one. -/
def mensagensDeTeste : Mensagens where
  topico m := if m = 0 then topic2 else []
  payload _ := [49, 50, 51]

/-- A message arrives after the subscription of the first round. -/
def mensagemNaPausa : List Rotulo :=
  .cliente (.arrive 0) :: List.replicate 8 (.cliente (.message 0 1))

theorem one_line_per_message_truncated :
    ∃ history p, Run (processo mensagensDeTeste) inicio history p ∧ p.cout.length = 1 ∧
      Impressao mensagensDeTeste history p := by
  obtain ⟨p, run, written⟩ := exists_run_of_execute (processo mensagensDeTeste) inicio
    (primeiraInscricao ++ mensagemNaPausa) (fun p => p.cout.length) 1 (by decide)
  exact ⟨_, p, run, written, one_line_per_message _ run⟩

end PahoClient.MqttTest
