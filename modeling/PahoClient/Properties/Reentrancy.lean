import PahoClient.Properties.Rest
import PahoClient.Properties.Termination

/-!
# Calls made in message callbacks

An application callback runs on the thread on which the library reports the
completions.  A call that it makes can go on until it waits for a command, or
for a call that does, and then nothing moves any more.
-/

namespace PahoClient

open PahoClient.Sync
open PahoClient.Transition

/-! ## Nested calls -/

/-- The calls that the callback of each message makes, and the message in whose
callback a call is made. -/
structure Aninhamento where
  chamadas : MsgId → List CallId
  mensagem : CallId → Option MsgId
  mem_chamadas : ∀ c m, c ∈ chamadas m ↔ mensagem c = some m

namespace Aninhamento

/-- The callback of the message is not in the middle of a call. -/
def livre (a : Aninhamento) (s : State) (m : MsgId) : Bool :=
  (a.chamadas m).all fun c => !(s.pc c).inProgress

/-- A callback makes its calls one after the other, and returns between them. -/
def permite (a : Aninhamento) (s : State) : Label → Bool
  | .start c =>
      match a.mensagem c with
      | none => true
      | some m => decide ((s.delivery m).pc = .inside) && a.livre s m
  | .message m _ => !decide ((s.delivery m).pc = .inside) || a.livre s m
  | _ => true

/-- The library runs its callbacks one at a time, and they call back into the
client. -/
def passo (a : Aninhamento) (program : Program) : Step State Label := fun s label =>
  if a.permite s label then serialStep program s label else none

/-- Something that has begun can go on. -/
def Avanca (a : Aninhamento) (program : Program) (s : State) : Prop :=
  ∃ label t, label.advances = true ∧ a.passo program s label = some t

/-- A call of a callback waits for the command of a call, which is its own or
that of the holder of `_conexao_mtx`. -/
structure Preso (a : Aninhamento) (s : State) (c d : CallId) : Prop where
  aninhada : (a.mensagem c).isSome = true
  progress : (s.pc c).inProgress = true
  comando : (s.request d).outstanding = true
  espera : d = c ∨ s.pc c = .lockConexao ∧ s.conexaoMtx = some d

end Aninhamento

/-- The library enters a callback or a callback goes on. -/
def Label.daBiblioteca : Label → Bool
  | .deliver _ | .handler _ | .arrive _ | .message _ _ => true
  | _ => false

/-- The library has begun to report the completion. -/
def Request.entregue : Request → Bool
  | running _ _ | done _ => true
  | unissued | rejected _ | pending | ready _ => false

section Steps

variable {a : Aninhamento} {program : Program} {s t : State} {label : Label}

theorem serialStep_of_passo (executed : a.passo program s label = some t) :
    serialStep program s label = some t := by
  unfold Aninhamento.passo at executed
  split at executed
  · exact executed
  · cases executed

theorem permite_of_passo (executed : a.passo program s label = some t) :
    a.permite s label = true := by
  unfold Aninhamento.passo at executed
  split at executed
  · assumption
  · cases executed

theorem not_inProgress_of_livre {c : CallId} {m : MsgId} (livre : a.livre s m = true)
    (nested : a.mensagem c = some m) : (s.pc c).inProgress = false := by
  have all := List.all_eq_true.mp livre c ((a.mem_chamadas c m).mpr nested)
  simpa using all

/-- A callback does not return while a call that it has made is in progress. -/
theorem not_message_of_passo {c : CallId} {m : MsgId} {ret : Int}
    (executed : a.passo program s (.message m ret) = some t) (nested : a.mensagem c = some m)
    (inside : (s.delivery m).pc = .inside) : (s.pc c).inProgress = false := by
  have permitted := permite_of_passo executed
  simp only [Aninhamento.permite, inside, decide_true, Bool.not_true, Bool.false_or] at permitted
  exact not_inProgress_of_livre permitted nested

/-- Nothing enters a callback while another one runs. -/
theorem active_of_entersCallback (executed : serialStep program s label = some t)
    (enters : label.entersCallback = true) : s.active = [] := by
  unfold serialStep at executed
  split at executed
  · cases executed
  · rename_i idle
    simpa [enters] using idle

/-! ## What holds in every state -/

/-- The library counts the handler of every completion that it is reporting. -/
theorem reporting_step (reporting : ∀ c res pc, s.request c = .running res pc →
      .handler c ∈ s.active) (executed : step program s label = some t) (c : CallId)
    (res : Completion) (pc : HandlerPc) (running : t.request c = .running res pc) :
    .handler c ∈ t.active := by
  cases step_effect executed with
  | start | wake | network => exact reporting c res pc running
  | arrive => exact List.mem_cons_of_mem _ (reporting c res pc running)
  | @call d ret _ enabled effect =>
      rw [effect.active]
      rw [effect.request] at running
      split at running
      · by_cases own : c = d
        · subst d
          rw [Function.update_self] at running
          split at running <;> cases running
        · rw [Function.update_of_ne own] at running
          exact reporting c res pc running
      · exact reporting c res pc running
  | @complete d _ pending =>
      by_cases own : c = d
      · subst d
        simp [State.setRequest] at running
      · simp only [State.setRequest, Function.update_of_ne own] at running
        exact reporting c res pc running
  | @deliver d _ ready =>
      by_cases own : c = d
      · subst d
        exact List.mem_cons_self
      · simp only [State.setRequest, Function.update_of_ne own] at running
        exact List.mem_cons_of_mem _ (reporting c res pc running)
  | @handler d _ before _ handling effect =>
      rw [effect.active]
      rw [effect.request] at running
      by_cases own : c = d
      · subst d
        rw [Function.update_self] at running
        rw [if_neg]
        · exact reporting c _ _ handling
        · rintro rfl
          cases running
      · rw [Function.update_of_ne own] at running
        have member := reporting c res pc running
        split
        · exact (List.mem_erase_of_ne (by simpa using own)).mpr member
        · exact member
  | @message m ret _ moved =>
      rw [(mensagemRecebida_frame moved).request] at running
      rw [(mensagemRecebida_effect moved).active]
      have member := reporting c res pc running
      split
      · exact (List.mem_erase_of_ne (by simp)).mpr member
      · exact member

/-- What holds in every state when callbacks call the client: a call made in a
callback is in progress in that callback only, and the library does not begin to
report its completion. -/
structure NestedInv (a : Aninhamento) (program : Program) (s : State) : Prop where
  locks : LockInv program s
  reporting : ∀ c res pc, s.request c = .running res pc → .handler c ∈ s.active
  inside : ∀ c m, a.mensagem c = some m → (s.pc c).inProgress = true →
    (s.delivery m).pc = .inside
  entregue : ∀ c, (a.mensagem c).isSome = true → (s.request c).entregue = false

theorem nestedInv_initial (a : Aninhamento) (program : Program) (callbackMap : CallbackMap)
    (conectado : Bool) : NestedInv a program (initial callbackMap conectado) where
  locks := lockInv_initial program callbackMap conectado
  reporting _ _ _ running := by cases running
  inside _ _ _ progress := by cases progress
  entregue _ _ := rfl

/-- While a callback is in the middle of a call, it is all that the library
runs. -/
theorem NestedInv.active_eq (inv : NestedInv a program s) {c : CallId} {m : MsgId}
    (nested : a.mensagem c = some m) (progress : (s.pc c).inProgress = true) :
    s.active = [.message m] := by
  have inside := inv.inside c m nested progress
  have member := inv.locks.serial.covers m (by rw [inside]; rfl)
  have single := inv.locks.serial.single
  cases active : s.active with
  | nil =>
      rw [active] at member
      cases member
  | cons agent rest =>
      rw [active] at member single
      have empty : rest = [] := by
        simpa using single
      rw [empty] at member ⊢
      rw [List.mem_singleton.mp member]

/-- An accepted command is under way for as long as its call is. -/
theorem inProgress_of_outstanding (inv : Inv program s) {c : CallId}
    (outstanding : (s.request c).outstanding = true) : (s.pc c).inProgress = true := by
  by_contra resting
  rw [Bool.not_eq_true] at resting
  rw [inv.not_outstanding resting] at outstanding
  cases outstanding

theorem NestedInv.inside_step (inv : NestedInv a program s)
    (executed : a.passo program s label = some t) (c : CallId) (m : MsgId)
    (nested : a.mensagem c = some m) (progress : (t.pc c).inProgress = true) :
    (t.delivery m).pc = .inside := by
  have plain := step_of_serialStep (serialStep_of_passo executed)
  have inside : (s.delivery m).pc = .inside := by
    rcases pc_cases plain c with same | ⟨rfl, _, _⟩ | ⟨ret, rfl, enabled, _⟩
    · exact inv.inside c m nested (by rw [← same]; exact progress)
    · have permitted := permite_of_passo executed
      simp only [Aninhamento.permite, nested, Bool.and_eq_true, decide_eq_true_eq] at permitted
      exact permitted.1
    · apply inv.inside c m nested
      by_contra resting
      rw [Bool.not_eq_true] at resting
      rw [despachar_of_resting _ ret resting] at enabled
      cases enabled
  rcases delivery_cases plain m with ⟨same, _⟩ | ⟨_, idle, _⟩ | ⟨ret, rfl, _⟩
  · rw [same]
    exact inside
  · rw [inside] at idle
    cases idle
  · have resting := not_message_of_passo executed nested inside
    have same : t.pc = s.pc := (mensagemRecebida_frame plain).pc
    rw [same, resting] at progress
    cases progress

theorem NestedInv.entregue_step (inv : NestedInv a program s)
    (executed : a.passo program s label = some t) (c : CallId)
    (nested : (a.mensagem c).isSome = true) : (t.request c).entregue = false := by
  have serial := serialStep_of_passo executed
  have before := inv.entregue c nested
  obtain ⟨m, message⟩ := Option.isSome_iff_exists.mp nested
  rcases request_cases (step_of_serialStep serial) c with same | ⟨ret, _, _, issued⟩ |
    ⟨_, _, _, _, ready⟩ | ⟨res, rfl, ready, _⟩ | ⟨_, _, _, running, _⟩
  · rw [same]
    exact before
  · rw [issued]
    split <;> rfl
  · rw [ready]
    rfl
  · have active := inv.active_eq message
      (inProgress_of_outstanding inv.locks.inv (by rw [ready]; rfl))
    rw [active_of_entersCallback serial rfl] at active
    cases active
  · rw [running] at before
    cases before

theorem NestedInv.step (inv : NestedInv a program s)
    (executed : a.passo program s label = some t) : NestedInv a program t where
  locks := inv.locks.step (serialStep_of_passo executed)
  reporting := reporting_step inv.reporting (step_of_serialStep (serialStep_of_passo executed))
  inside := inv.inside_step executed
  entregue := inv.entregue_step executed

/-! ## Waiting for ever -/

/-- An accepted command of a nested call holds its callback. -/
theorem NestedInv.preso (inv : NestedInv a program s) {c : CallId}
    (nested : (a.mensagem c).isSome = true) (accepted : (s.request c).accepted = true) :
    a.Preso s c c := by
  have outstanding : (s.request c).outstanding = true := by
    have before := inv.entregue c nested
    cases request : s.request c with
    | pending | ready => rfl
    | running | done =>
        rw [request] at before
        cases before
    | unissued | rejected =>
        rw [request] at accepted
        cases accepted
  exact ⟨nested, inProgress_of_outstanding inv.locks.inv outstanding, outstanding, Or.inl rfl⟩

/-- The library stays in the callback. -/
theorem NestedInv.not_daBiblioteca (inv : NestedInv a program s) {c d : CallId}
    (preso : a.Preso s c d) (executed : a.passo program s label = some t) :
    label.daBiblioteca = false := by
  obtain ⟨m, nested⟩ := Option.isSome_iff_exists.mp preso.aninhada
  have active := inv.active_eq nested preso.progress
  have serial := serialStep_of_passo executed
  have plain := step_of_serialStep serial
  cases label with
  | deliver | arrive =>
      rw [active_of_entersCallback serial rfl] at active
      cases active
  | handler e =>
      obtain ⟨res, pc, running, _⟩ := request_of_handler plain
      have member := inv.reporting e res pc running
      rw [active] at member
      simp at member
  | message n ret =>
      have progress : (s.delivery n).pc.inProgress = true := by
        cases pc : (s.delivery n).pc with
        | idle | finished =>
            simp [PahoClient.step, Connect.mensagemRecebida, pc] at plain
        | _ => rfl
      have member := inv.locks.serial.covers n progress
      rw [active, List.mem_singleton] at member
      cases member
      have resting := not_message_of_passo executed nested (inv.inside c m nested preso.progress)
      rw [preso.progress] at resting
      cases resting
  | start | call | wake | complete | network => rfl

theorem NestedInv.outstanding_step (inv : NestedInv a program s) {c d : CallId}
    (preso : a.Preso s c d) (executed : a.passo program s label = some t) :
    (t.request d).outstanding = true := by
  have library := inv.not_daBiblioteca preso executed
  have before := preso.comando
  rcases request_cases (step_of_serialStep (serialStep_of_passo executed)) d with same |
    ⟨_, _, command, _⟩ | ⟨_, _, _, _, ready⟩ | ⟨_, rfl, _⟩ | ⟨_, _, rfl, _⟩
  · rw [same]
    exact before
  · rw [inv.locks.inv.unissued_of_command command] at before
    cases before
  · rw [ready]
    rfl
  · cases library
  · cases library

theorem NestedInv.preso_step (inv : NestedInv a program s) {c d : CallId}
    (preso : a.Preso s c d) (executed : a.passo program s label = some t) :
    a.Preso t c d := by
  have after := (inv.step executed).locks.inv
  have comando := inv.outstanding_step preso executed
  rcases preso.espera with rfl | ⟨waits, held⟩
  · exact ⟨preso.aninhada, inProgress_of_outstanding after comando, comando, Or.inl rfl⟩
  · have stays : t.pc c = .lockConexao := by
      rcases pc_cases (step_of_serialStep (serialStep_of_passo executed)) c with same |
        ⟨_, idle, _⟩ | ⟨ret, _, enabled, _⟩
      · exact same.trans waits
      · rw [waits] at idle
        cases idle
      · cases op : program.op c <;>
          simp [op, despachar, Connect.despachar, Subscribe.despachar, Unsubscribe.despachar,
            Disconnect.despachar, lockConexao, Contexto.esperar, waits, held] at enabled
    have mutex : t.conexaoMtx = some d :=
      (after.mutex d (inv.locks.inv.holder d held)).mp (after.owns_of_outstanding comando)
    exact ⟨preso.aninhada, by rw [stays]; rfl, comando, Or.inr ⟨stays, mutex⟩⟩

/-! ## Nothing else stops the client -/

theorem Aninhamento.Avanca.of_step (label : Label) (advances : label.advances = true)
    (permitted : a.permite s label = true) (inside : label.entersCallback = false)
    (enabled : (PahoClient.step program s label).isSome = true) : a.Avanca program s := by
  obtain ⟨t, executed⟩ := Option.isSome_iff_exists.mp enabled
  refine ⟨label, t, advances, ?_⟩
  simp only [Aninhamento.passo, permitted, if_true, serialStep, inside, Bool.false_and]
  exact executed

/-- A call in the middle of a callback finds the table's lock free when nothing
goes on. -/
theorem NestedInv.slock (inv : NestedInv a program s) (stuck : ¬ a.Avanca program s) {c : CallId}
    {m : MsgId} (nested : a.mensagem c = some m) (progress : (s.pc c).inProgress = true)
    (agent : Agent) : s.callbackMapSlock.acquireExclusive agent ≠ none := by
  have active := inv.active_eq nested progress
  have writer : s.callbackMapSlock.writer = none := by
    rw [Option.eq_none_iff_forall_ne_some]
    intro holder held
    have writes := (inv.locks.guarded.writer holder).mp held
    cases holder with
    | call d =>
        have writesPc : (s.pc d).writesMap = true := writes
        apply stuck
        apply Aninhamento.Avanca.of_step (.call d MQTTASYNC_SUCCESS) rfl rfl rfl
        apply despachar_enabled (inv.locks.belongs d)
        · cases pc : s.pc d <;> simp_all [Pc.writesMap, Pc.inProgress]
        · unfold Blocked
          cases pc : s.pc d <;> simp_all [Pc.writesMap]
    | handler d =>
        have writesRequest : (s.request d).writesMap = true := writes
        cases request : s.request d with
        | running res pc =>
            have member := inv.reporting d res pc request
            rw [active] at member
            simp at member
        | _ =>
            rw [request] at writesRequest
            cases writesRequest
    | message n => cases writes
  have readers : s.callbackMapSlock.readers = [] := by
    rw [List.eq_nil_iff_forall_not_mem]
    intro reader member
    have reads := (inv.locks.guarded.readers reader).mp member
    cases reader with
    | call d => cases reads
    | handler d => cases reads
    | message n =>
        have readsDelivery : (s.delivery n).pc.readsMap = true := reads
        have runs : (s.delivery n).pc.inProgress = true := by
          cases pc : (s.delivery n).pc <;> simp_all [MessagePc.readsMap, MessagePc.inProgress]
        have same := inv.locks.serial.covers n runs
        rw [active, List.mem_singleton] at same
        cases same
        rw [inv.inside c m nested progress] at readsDelivery
        cases readsDelivery
  simp [RWLock.acquireExclusive, writer, readers]

/-- Where nothing goes on and a callback is in the middle of a call, every call
in progress waits for `_conexao_mtx` or for its command. -/
theorem NestedInv.waits (inv : NestedInv a program s) (stuck : ¬ a.Avanca program s) {c : CallId}
    {m : MsgId} (nested : a.mensagem c = some m) (progress : (s.pc c).inProgress = true)
    {d : CallId} (running : (s.pc d).inProgress = true) :
    s.pc d = .lockConexao ∧ s.conexaoMtx ≠ none ∨ (s.request d).outstanding = true := by
  have active := inv.active_eq nested progress
  have blocked : Blocked (program.op d) d s := by
    by_contra free
    exact stuck (Aninhamento.Avanca.of_step (.call d MQTTASYNC_SUCCESS) rfl rfl rfl
      (despachar_enabled (inv.locks.belongs d) running free))
  have known := inv.locks.inv.progress d
  by_cases beyond : s.pc d = .lockConexao
  · refine Or.inl ⟨beyond, ?_⟩
    simpa only [Blocked, beyond] using blocked
  · right
    have owner := owns_of_blocked (inv.locks.belongs d) blocked beyond
    have agrees := inv.locks.inv.agrees d owner
    unfold Blocked at blocked
    split at blocked
    case h_1 pc => exact absurd pc beyond
    case h_2 => exact absurd blocked (inv.slock stuck nested progress (.call d))
    case h_3 pc =>
        rw [agrees.mutex, pc] at blocked
        cases request : s.request d with
        | running res pc =>
            have member := inv.reporting d res pc request
            rw [active] at member
            simp at member
        | _ =>
            rw [request] at blocked
            exact absurd rfl blocked
    case h_4 pc =>
        rw [pc] at known
        rcases agrees.blocked with empty | ⟨_, _, notNotified⟩
        · rw [empty] at blocked
          cases blocked
        · cases request : s.request d <;>
            simp_all [PahoClient.progress, Request.accepted, Request.notified,
              Request.outstanding]
    case h_5 => exact blocked.elim

/-- A callback whose call cannot go on waits for a command. -/
theorem NestedInv.exists_preso (inv : NestedInv a program s) (stuck : ¬ a.Avanca program s)
    {c : CallId} (nested : (a.mensagem c).isSome = true)
    (progress : (s.pc c).inProgress = true) : ∃ d, a.Preso s c d := by
  obtain ⟨m, message⟩ := Option.isSome_iff_exists.mp nested
  rcases inv.waits stuck message progress progress with ⟨waits, held⟩ | outstanding
  · obtain ⟨d, holder⟩ := Option.ne_none_iff_exists'.mp held
    have uses := inv.locks.inv.holder d holder
    have owner := (inv.locks.inv.mutex d uses).mpr holder
    have running : (s.pc d).inProgress = true := by
      cases op : program.op d <;> cases pc : s.pc d <;>
        simp_all [owns, Pc.inProgress, Operation.usesConexao]
    rcases inv.waits stuck message progress running with ⟨behind, _⟩ | outstanding
    · rw [behind] at owner
      cases op : program.op d <;> simp_all [owns, Operation.usesConexao]
    · exact ⟨d, nested, progress, outstanding, Or.inr ⟨waits, holder⟩⟩
  · exact ⟨c, nested, progress, outstanding, Or.inl rfl⟩

theorem NestedInv.of_run {callbackMap : CallbackMap} {conectado : Bool}
    {history : List (Event State Label)}
    (run : Run (a.passo program) (initial callbackMap conectado) history s) :
    NestedInv a program s :=
  run.invariant (NestedInv a program) (nestedInv_initial a program callbackMap conectado)
    fun _ _ _ inv executed => inv.step executed

/-- Where nothing goes on, nothing is under way or a callback waits for a
command. -/
theorem NestedInv.rests (inv : NestedInv a program s) (stuck : ¬ a.Avanca program s) :
    Assentado s ∨ ∃ c d, a.Preso s c d := by
  by_cases busy : ∃ c, (a.mensagem c).isSome = true ∧ (s.pc c).inProgress = true
  · obtain ⟨c, nested, progress⟩ := busy
    obtain ⟨d, preso⟩ := inv.exists_preso stuck nested progress
    exact Or.inr ⟨c, d, preso⟩
  · left
    apply inv.locks.assentado
    rintro ⟨label, t, advances, executed⟩
    refine stuck ⟨label, t, advances, ?_⟩
    have permitted : a.permite s label = true := by
      cases label with
      | start | arrive | wake | network => cases advances
      | message m ret =>
          have free : a.livre s m = true := by
            rw [Aninhamento.livre, List.all_eq_true]
            intro c member
            have nested := (a.mem_chamadas c m).mp member
            by_contra running
            exact busy ⟨c, by rw [nested]; rfl, by simpa using running⟩
          simp [Aninhamento.permite, free]
      | call | complete | deliver | handler => rfl
    rw [Aninhamento.passo, if_pos permitted]
    exact executed

theorem NestedInv.preso_run (inv : NestedInv a program s) {c d : CallId} (preso : a.Preso s c d)
    {later : List (Event State Label)} (run : Run (a.passo program) s later t) :
    NestedInv a program t ∧ a.Preso t c d ∧ ∀ event ∈ later, event.label.daBiblioteca = false := by
  induction run with
  | refl => exact ⟨inv, preso, by simp⟩
  | tail _ executed ih =>
      obtain ⟨before, held, silent⟩ := ih
      exact ⟨before.step executed, before.preso_step held executed,
        List.forall_mem_cons.mpr ⟨before.not_daBiblioteca held executed, silent⟩⟩

end Steps

/-- When application callbacks call back into the client, a client that is left
alone comes to rest within the bound, with nothing under way or with a callback
whose call waits for a command.  The latter is for ever, and the library runs no
callback any more; and a command that a callback's call has got accepted is
enough for it. -/
theorem callbacks_that_call (program : Program) (a : Aninhamento) (callbackMap : CallbackMap)
    (conectado : Bool) {history : List (Event State Label)} {s : State}
    (run : Run (a.passo program) (initial callbackMap conectado) history s) :
    (∀ later t, Run (a.passo program) s later t →
      (∀ event ∈ later, event.label.quieto = true) →
        avancos later + avancos history ≤ limite program history ∧
          (a.Avanca program t ∨ Assentado t ∨ ∃ c d, a.Preso t c d)) ∧
    (∀ c d, a.Preso s c d → ∀ later t, Run (a.passo program) s later t →
      a.Preso t c d ∧ ∀ event ∈ later, event.label.daBiblioteca = false) ∧
    ∀ c, (a.mensagem c).isSome = true → (s.request c).accepted = true → a.Preso s c c := by
  have inv := NestedInv.of_run run
  refine ⟨?_, ?_, fun c => inv.preso⟩
  · intro later t continued quiet
    have whole := run.trans continued
    constructor
    · have bounded := avancos_le_limite (whole.mono fun _ _ _ => serialStep_of_passo)
      rwa [limite_append_quieto program quiet, avancos, List.countP_append] at bounded
    · by_cases goes : a.Avanca program t
      · exact Or.inl goes
      · exact Or.inr ((NestedInv.of_run whole).rests goes)
  · intro c d preso later t continued
    exact (inv.preso_run preso continued).2

/-- A callback that unsubscribes from the topic of its message. -/
def programaAninhado : Program where
  op _ := .unsubscribe [[97]]
  topico _ := [97, 0]

/-- The first call is made in the callback of the first message. -/
def primeiraAninhada : Aninhamento where
  chamadas m := if m = 0 then [0] else []
  mensagem c := if c = 0 then some 0 else none
  mem_chamadas c m := by
    by_cases message : m = 0 <;> by_cases call : c = 0 <;> simp [message, call, eq_comm]

/-- The library accepts the command of the callback and finishes it. -/
def chamadaAninhada : List Label :=
  [.arrive 0, .message 0 0, .message 0 0, .message 0 0, .message 0 0, .start 0, .call 0 0,
    .complete 0 (.onSuccess ⟨0, [], 0⟩)]

theorem callbacks_that_call_unsubscribe :
    ∃ history s,
      Run (primeiraAninhada.passo programaAninhado) (initial (fun _ => some ⟨1⟩) true)
        history s ∧
      (s.delivery 0).pc = .inside ∧
      s.request 0 = .ready (.onSuccess ⟨0, [], 0⟩) ∧
      ∀ later t, Run (primeiraAninhada.passo programaAninhado) s later t →
        primeiraAninhada.Preso t 0 0 ∧ ∀ event ∈ later, event.label.daBiblioteca = false := by
  obtain ⟨s, run, view⟩ := exists_run_of_execute (primeiraAninhada.passo programaAninhado)
    (initial (fun _ => some ⟨1⟩) true) chamadaAninhada
    (fun s => ((s.delivery 0).pc, s.request 0)) (.inside, .ready (.onSuccess ⟨0, [], 0⟩))
    (by decide)
  simp only [Prod.mk.injEq] at view
  obtain ⟨_, forever, held⟩ := callbacks_that_call _ _ _ _ run
  exact ⟨_, s, run, view.1, view.2, forever 0 0 (held 0 rfl (by rw [view.2]; rfl))⟩

end PahoClient
