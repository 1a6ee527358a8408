import PahoClient.Client.Messages

/-!
# Who holds what

The writer of `_callback_map_slock` is the call or the handler between its
acquisition and its release, the readers are the runs of `mensagemRecebida`
around their lookup, and the callbacks that the library runs are really running.
-/

namespace PahoClient

open PahoClient.Sync
open PahoClient.Transition

/-! ## Sections -/

namespace State

def writesMap (s : State) : Agent → Bool
  | .call c => (s.pc c).writesMap
  | .handler c => (s.request c).writesMap
  | .message _ => false

def readsMap (s : State) : Agent → Bool
  | .call _ | .handler _ => false
  | .message m => (s.delivery m).pc.readsMap

/-- The lock of the table agrees with the positions of the threads. -/
def MapGuarded (s : State) : Prop :=
  s.callbackMapSlock.Guards s.writesMap s.readsMap

end State

/-- The positions that a call of an operation can be at. -/
def belongs : Operation → Pc → Bool
  | _, .idle | _, .command | _, .waitLock | _, .waitTest | _, .waiting => true
  | _, .waitUnlock _ | _, .returned _ => true
  | .conectar, .lockConexao | .conectar, .testConectado | .conectar, .setCallbacks => true
  | .conectar, .unlockConexao _ => true
  | .desconectar, .lockConexao | .desconectar, .testConectado => true
  | .desconectar, .unlockConexao _ => true
  | .subscribe _, .testVazio => true
  | .subscribe _, .acquire .inserir | .subscribe _, .acquire .desfazer => true
  | .subscribe _, .loop .inserir | .subscribe _, .loop .desfazer => true
  | .subscribe _, .release .inserir | .subscribe _, .release .desfazer => true
  | .unsubscribe _, .acquire .apagar | .unsubscribe _, .loop .apagar => true
  | .unsubscribe _, .release .apagar => true
  | _, _ => false

/-! ## Invariants -/

section Steps

variable {program : Program} {s t : State} {label : Label}

/-- A step that moves one agent keeps the table guarded if the agent uses the
lock as its position says. -/
theorem State.MapGuarded.of_use (guarded : s.MapGuarded) (agent : Agent)
    (used : RWLock.Use agent s.callbackMapSlock t.callbackMapSlock (s.writesMap agent)
      (t.writesMap agent) (s.readsMap agent) (t.readsMap agent))
    (others : ∀ other, other ≠ agent →
      t.writesMap other = s.writesMap other ∧ t.readsMap other = s.readsMap other) :
    t.MapGuarded := by
  have writes : t.writesMap = Function.update s.writesMap agent (t.writesMap agent) := by
    funext other
    by_cases same : other = agent
    · rw [same, Function.update_self]
    · rw [Function.update_of_ne same, (others other same).1]
  have reads : t.readsMap = Function.update s.readsMap agent (t.readsMap agent) := by
    funext other
    by_cases same : other = agent
    · rw [same, Function.update_self]
    · rw [Function.update_of_ne same, (others other same).2]
  rw [State.MapGuarded, writes, reads]
  exact guarded.use used

/-- A step that leaves the lock and the sections alone. -/
theorem State.MapGuarded.frame (guarded : s.MapGuarded)
    (lock : t.callbackMapSlock = s.callbackMapSlock)
    (pc : ∀ c, (t.pc c).writesMap = (s.pc c).writesMap)
    (request : ∀ c, (t.request c).writesMap = (s.request c).writesMap)
    (delivery : ∀ m, (t.delivery m).pc.readsMap = (s.delivery m).pc.readsMap) :
    t.MapGuarded := by
  have writes : t.writesMap = s.writesMap := by
    funext agent
    cases agent with
    | call c => exact pc c
    | handler c => exact request c
    | message m => rfl
  have reads : t.readsMap = s.readsMap := by
    funext agent
    cases agent with
    | call c => rfl
    | handler c => rfl
    | message m => exact delivery m
  rw [State.MapGuarded, lock, writes, reads]
  exact guarded

theorem mapGuarded_initial (callbackMap : CallbackMap) (conectado : Bool) :
    (initial callbackMap conectado).MapGuarded := by
  have writes : (initial callbackMap conectado).writesMap = fun _ => false := by
    funext agent
    cases agent <;> rfl
  have reads : (initial callbackMap conectado).readsMap = fun _ => false := by
    funext agent
    cases agent <;> rfl
  rw [State.MapGuarded, writes, reads]
  exact RWLock.guards_free

/-- Issuing a command does not bring its handler into a section. -/
theorem request_writesMap_of_call (inv : Inv program s) {c : CallId} {ret : Int}
    (executed : despachar (program.op c) c ret s = some t) (d : CallId) :
    (t.request d).writesMap = (s.request d).writesMap := by
  rw [(despachar_effect executed).request]
  split
  · rename_i command
    by_cases own : d = c
    · subst d
      rw [Function.update_self, inv.unissued_of_command command]
      split <;> rfl
    · rw [Function.update_of_ne own]
  · rfl

theorem writesMap_entry (op : Operation) : (entry op).writesMap = false := by
  cases op <;> rfl

theorem State.MapGuarded.step (guarded : s.MapGuarded) (inv : Inv program s)
    (executed : PahoClient.step program s label = some t) : t.MapGuarded := by
  cases step_effect executed with
  | @start c idle =>
      refine guarded.frame rfl ?_ (fun _ => rfl) (fun _ => rfl)
      intro d
      by_cases own : d = c
      · subst d
        simp only [State.setPc, Function.update_self, writesMap_entry, idle]
        rfl
      · simp [State.setPc, own]
  | @call c ret _ enabled effect =>
      apply guarded.of_use (.call c)
      · simpa only [State.writesMap, State.readsMap, effect.pc, Function.update_self] using
          effect.slock
      intro other different
      cases other with
      | call d =>
          have own : d ≠ c := by
            rintro rfl
            exact different rfl
          simp [State.writesMap, State.readsMap, effect.pc, own]
      | handler d => exact ⟨request_writesMap_of_call inv enabled d, rfl⟩
      | message m => simp [State.writesMap, State.readsMap, effect.delivery]
  | wake => exact guarded.frame rfl (fun _ => rfl) (fun _ => rfl) (fun _ => rfl)
  | @complete c res pending =>
      refine guarded.frame rfl (fun _ => rfl) ?_ (fun _ => rfl)
      intro d
      by_cases own : d = c
      · subst d
        simp [State.setRequest, pending, Request.writesMap]
      · simp [State.setRequest, own]
  | @deliver c res ready =>
      refine guarded.frame rfl (fun _ => rfl) ?_ (fun _ => rfl)
      intro d
      by_cases own : d = c
      · subst d
        simp [State.setRequest, ready, Request.writesMap]
      · simp [State.setRequest, own]
  | @handler c res pc _ running effect =>
      apply guarded.of_use (.handler c)
      · simpa only [State.writesMap, State.readsMap, running, effect.request,
          Function.update_self] using effect.slock
      intro other different
      cases other with
      | call d => simp [State.writesMap, State.readsMap, effect.pcEq]
      | handler d =>
          have own : d ≠ c := by
            rintro rfl
            exact different rfl
          simp [State.writesMap, State.readsMap, effect.request, own]
      | message m => simp [State.writesMap, State.readsMap, effect.delivery]
  | @arrive m idle =>
      refine guarded.frame rfl (fun _ => rfl) (fun _ => rfl) ?_
      intro n
      by_cases own : n = m
      · subst n
        simp [State.setDelivery, idle, MessagePc.readsMap]
      · simp [State.setDelivery, own]
  | @message m ret _ messageStep =>
      have frame := mensagemRecebida_frame messageStep
      have effect := mensagemRecebida_effect messageStep
      apply guarded.of_use (.message m)
      · simpa only [State.writesMap, State.readsMap, effect.delivery, Function.update_self] using
          effect.slock
      intro other different
      cases other with
      | call c => simp [State.writesMap, State.readsMap, frame.pc]
      | handler c => simp [State.writesMap, State.readsMap, frame.request]
      | message n =>
          have own : n ≠ m := by
            rintro rfl
            exact different rfl
          simp [State.writesMap, State.readsMap, effect.delivery, own]
  | network => exact guarded.frame rfl (fun _ => rfl) (fun _ => rfl) (fun _ => rfl)

/-- A step uses the lock of the table as one agent's statement at most. -/
theorem slock_use (executed : PahoClient.step program s label = some t) :
    ∃ (agent : Agent) (writes writes' reads reads' : Bool),
      RWLock.Use agent s.callbackMapSlock t.callbackMapSlock writes writes' reads reads' := by
  cases step_effect executed with
  | @start c | @wake c | @complete c | @deliver c =>
      exact ⟨.call c, false, false, false, false, .none rfl⟩
  | call _ effect => exact ⟨_, _, _, _, _, effect.slock⟩
  | handler _ effect => exact ⟨_, _, _, _, _, effect.slock⟩
  | @arrive m => exact ⟨.message m, false, false, false, false, .none rfl⟩
  | message messageStep => exact ⟨_, _, _, _, _, (mensagemRecebida_effect messageStep).slock⟩
  | network => exact ⟨.call 0, false, false, false, false, .none rfl⟩

/-- The sections of the table in every state that the client can reach. -/
structure Sections (s : State) : Prop where
  guarded : s.MapGuarded
  exclusive : s.callbackMapSlock.Exclusive

theorem sections_initial (callbackMap : CallbackMap) (conectado : Bool) :
    Sections (initial callbackMap conectado) where
  guarded := mapGuarded_initial callbackMap conectado
  exclusive := RWLock.exclusive_free

theorem Sections.step (sections : Sections s) (inv : Inv program s)
    (executed : PahoClient.step program s label = some t) : Sections t where
  guarded := sections.guarded.step inv executed
  exclusive := by
    obtain ⟨_, _, _, _, _, used⟩ := slock_use executed
    exact sections.exclusive.use used

theorem sections_of_run {callbackMap : CallbackMap} {conectado : Bool}
    {history : List (Event State Label)}
    (run : Run (PahoClient.step program) (initial callbackMap conectado) history s) :
    Sections s := by
  induction run with
  | refl => exact sections_initial callbackMap conectado
  | tail earlier executed ih => exact ih.step (Inv.of_run earlier) executed

theorem belongs_entry (op : Operation) : belongs op (entry op) = true := by
  cases op <;> rfl

theorem belongs_waitNext {op : Operation} {after : Bool → Pc} (x : Contexto) {pc : Pc}
    (inside : belongs op pc = true) (afterInside : ∀ res, belongs op (after res) = true) :
    belongs op (waitNext after x pc) = true := by
  cases pc with
  | waitTest =>
      simp only [waitNext]
      split <;> cases op <;> rfl
  | waitUnlock res => exact afterInside res
  | waitLock | waiting => cases op <;> rfl
  | _ => exact inside

/-- A call stays at the positions of its operation. -/
theorem belongs_callNext {op : Operation} {c : CallId} (ret : Int)
    (inside : belongs op (s.pc c) = true) : belongs op (callNext op c ret s) = true := by
  unfold callNext
  split
  case h_1 => rfl
  case h_2 => split_ifs <;> rfl
  case h_3 | h_4 | h_5 | h_8 | h_10 | h_12 | h_13 => split <;> rfl
  case h_6 | h_7 | h_9 | h_11 | h_14 | h_15 => rfl
  case h_16 laco pc | h_17 laco pc | h_18 laco pc | h_19 laco pc =>
      rw [pc] at inside
      cases laco <;> first | rfl | cases inside
  case h_20 | h_21 | h_22 | h_23 => exact belongs_waitNext _ inside fun _ => rfl

theorem belongs_step (inside : ∀ c, belongs (program.op c) (s.pc c) = true)
    (executed : step program s label = some t) (c : CallId) :
    belongs (program.op c) (t.pc c) = true := by
  rcases pc_cases executed c with same | ⟨_, _, entered⟩ | ⟨ret, _, _, next⟩
  · rw [same]
    exact inside c
  · rw [entered]
    exact belongs_entry _
  · rw [next]
    exact belongs_callNext ret (inside c)

end Steps

/-! ## The callbacks that the library runs -/

/-- The library has entered the callback and it has not returned. -/
def State.Runs (s : State) : Agent → Prop
  | .call _ => False
  | .handler c => ∃ res pc, s.request c = .running res pc
  | .message m => (s.delivery m).pc.inProgress = true

section Runs

variable {program : Program} {s t : State} {label : Label}

/-- A run that does not finish goes on. -/
theorem inProgress_messageNext {chave : StdString} {map : CallbackMap} {ret : Int}
    {delivery : Delivery} (progress : delivery.pc.inProgress = true)
    (unfinished : (messageNext chave map ret delivery).pc ≠ .finished) :
    (messageNext chave map ret delivery).pc.inProgress = true := by
  unfold messageNext at unfinished ⊢
  split at unfinished <;> try split at unfinished
  all_goals simp_all [MessagePc.inProgress]

theorem SerialInv.nodup (serial : SerialInv s) : s.active.Nodup := by
  have single := serial.single
  match active : s.active with
  | [] => exact List.nodup_nil
  | [agent] => exact List.nodup_singleton agent
  | _ :: _ :: _ =>
      rw [active] at single
      simp at single

/-- A handler runs until its last statement, after which the library does not
count it any more. -/
theorem State.Runs.handler_step {c : CallId} (runs : s.Runs (.handler c)) (inv : Inv program s)
    (executed : step program s label = some t) :
    t.Runs (.handler c) ∨ t.active = s.active.erase (.handler c) := by
  obtain ⟨res, pc, handling⟩ := runs
  rcases request_cases executed c with same | ⟨_, _, command, _⟩ | ⟨_, _, pending, _⟩ |
    ⟨_, _, ready, _⟩ | ⟨res', pc', rfl, running, next⟩
  · exact Or.inl ⟨res, pc, same.trans handling⟩
  · rw [inv.unissued_of_command command] at handling
    cases handling
  · rw [pending] at handling
    cases handling
  · rw [ready] at handling
    cases handling
  · cases pc' with
    | unlock =>
        right
        cases step_effect executed with
        | handler running' effect =>
            rw [running] at running'
            cases running'
            rw [effect.active, if_pos rfl]
    | _ => exact Or.inl ⟨res', _, next⟩

/-- A run of `mensagemRecebida` goes on until its last statement, after which the
library does not count it any more. -/
theorem State.Runs.message_step {m : MsgId} (runs : s.Runs (.message m))
    (executed : step program s label = some t) :
    t.Runs (.message m) ∨ t.active = s.active.erase (.message m) := by
  have progress : (s.delivery m).pc.inProgress = true := runs
  rcases delivery_cases executed m with ⟨same, _⟩ | ⟨_, idle, _⟩ | ⟨ret, rfl, moved⟩
  · left
    rw [State.Runs, same]
    exact progress
  · rw [idle] at progress
    cases progress
  · have active := (mensagemRecebida_effect executed).active
    by_cases finished :
        (messageNext (program.chave m) s.callbackMap ret (s.delivery m)).pc = .finished
    · right
      rw [active, if_pos finished]
    · left
      rw [State.Runs, moved]
      exact inProgress_messageNext progress finished

/-- A callback that the library starts to count has just been entered. -/
theorem runs_of_entered {agent : Agent} (executed : step program s label = some t)
    (fresh : agent ∉ s.active) (member : agent ∈ t.active) : t.Runs agent := by
  rcases active_cases executed with same | ⟨c, rfl, active⟩ | ⟨m, rfl, active⟩ |
    ⟨c, active⟩ | ⟨m, _, active⟩
  · rw [same] at member
    exact absurd member fresh
  · rw [active] at member
    rcases List.mem_cons.mp member with rfl | earlier
    · cases step_effect executed with
      | @deliver _ res ready => exact ⟨res, .start, by simp [State.setRequest]⟩
    · exact absurd earlier fresh
  · rw [active] at member
    rcases List.mem_cons.mp member with rfl | earlier
    · cases step_effect executed with
      | arrive idle => simp [State.Runs, State.setDelivery, MessagePc.inProgress]
    · exact absurd earlier fresh
  · rw [active] at member
    exact absurd (List.mem_of_mem_erase member) fresh
  · rw [active] at member
    exact absurd (List.mem_of_mem_erase member) fresh

/-- The library has entered every callback that it counts as running. -/
theorem runs_step (inv : Inv program s) (serial : SerialInv s)
    (running : ∀ agent ∈ s.active, s.Runs agent)
    (executed : step program s label = some t) : ∀ agent ∈ t.active, t.Runs agent := by
  intro agent member
  by_cases before : agent ∈ s.active
  · have removed : t.active ≠ s.active.erase agent := by
      intro erased
      rw [erased] at member
      exact (serial.nodup.mem_erase_iff.mp member).1 rfl
    cases agent with
    | call c => exact (running _ before).elim
    | handler c => exact ((running _ before).handler_step inv executed).resolve_right removed
    | message m => exact ((running _ before).message_step executed).resolve_right removed
  · exact runs_of_entered executed before member

/-- What holds of the locks, the contexts and the running callbacks in every
state that the client can reach. -/
structure LockInv (program : Program) (s : State) : Prop where
  inv : Inv program s
  serial : SerialInv s
  guarded : s.MapGuarded
  belongs : ∀ c, belongs (program.op c) (s.pc c) = true
  running : ∀ agent ∈ s.active, s.Runs agent

theorem lockInv_initial (program : Program) (callbackMap : CallbackMap) (conectado : Bool) :
    LockInv program (initial callbackMap conectado) where
  inv := inv_initial program callbackMap conectado
  serial := serialInv_initial callbackMap conectado
  guarded := mapGuarded_initial callbackMap conectado
  belongs c := by
    cases op : program.op c <;> rfl
  running agent member := by cases member

theorem LockInv.step (inv : LockInv program s)
    (executed : serialStep program s label = some t) : LockInv program t where
  inv := inv.inv.step (step_of_serialStep executed)
  serial := serialInv_step inv.serial executed
  guarded := inv.guarded.step inv.inv (step_of_serialStep executed)
  belongs := belongs_step inv.belongs (step_of_serialStep executed)
  running := runs_step inv.inv inv.serial inv.running (step_of_serialStep executed)

theorem lockInv_of_run {callbackMap : CallbackMap} {conectado : Bool}
    {history : List (Event State Label)}
    (run : Run (serialStep program) (initial callbackMap conectado) history s) :
    LockInv program s :=
  run.invariant (LockInv program) (lockInv_initial program callbackMap conectado)
    fun _ _ _ inv executed => inv.step executed

end Runs

end PahoClient
