import PahoClient.Client.Effects

/-!
# The runs of `mensagemRecebida`

A run copies the callback of its topic under the shared lock and calls the copy
after it has released the lock.  Between the copy and the call nothing that the
other threads do can change what the run is going to call.
-/

namespace PahoClient

open PahoClient.Sync
open PahoClient.Transition

/-- A run of `mensagemRecebida` after its next statement. -/
def messageNext (chave : StdString) (map : CallbackMap) (ret : Int) (delivery : Delivery) :
    Delivery :=
  match delivery.pc with
  | .acquire => { delivery with pc := .lookup }
  | .lookup => { delivery with
      pc := .release
      callback := (map chave).getD Callback.null }
  | .release => { delivery with pc := .call }
  | .call =>
      if delivery.callback = Callback.null then { delivery with pc := .test }
      else { delivery with pc := .inside }
  | .inside => { delivery with pc := .test, ret := ret }
  | .test =>
      if delivery.ret = 1 then { delivery with pc := .freeMessage }
      else { delivery with pc := .finished }
  | .freeMessage => { delivery with pc := .free }
  | .free => { delivery with pc := .finished }
  | .idle | .finished => delivery

/-- The run of `mensagemRecebida` is inside its shared section. -/
def MessagePc.readsMap : MessagePc → Bool
  | lookup | release => true
  | _ => false

/-- The run `m` of `mensagemRecebida` calls an application callback, and is inside
it from then on. -/
def Calls (m : MsgId) (callback : Callback) (event : Event State Label) : Prop :=
  (∃ ret, event.label = .message m ret) ∧ (event.source.delivery m).pc = .call ∧
    (event.source.delivery m).callback = callback ∧ callback ≠ Callback.null ∧
    (event.target.delivery m).pc = .inside

/-- The run `m` of `mensagemRecebida` looks the key of its topic up. -/
def LooksUp (m : MsgId) (event : Event State Label) : Prop :=
  (∃ ret, event.label = .message m ret) ∧ (event.source.delivery m).pc = .lookup

section Steps

variable {program : Program} {s t : State} {label : Label}

/-- The extent of one statement of `mensagemRecebida`: it moves its run only and
uses the lock of the table as its position says. -/
structure MessageEffect (chave : StdString) (m : MsgId) (ret : Int) (s t : State) : Prop where
  delivery : t.delivery = Function.update s.delivery m
    (messageNext chave s.callbackMap ret (s.delivery m))
  active : t.active =
    if (messageNext chave s.callbackMap ret (s.delivery m)).pc = .finished then
      s.active.erase (.message m) else s.active
  slock : RWLock.Use (Agent.message m) s.callbackMapSlock t.callbackMapSlock false false
    (s.delivery m).pc.readsMap (messageNext chave s.callbackMap ret (s.delivery m)).pc.readsMap

theorem MessageEffect.of_next {chave : StdString} {m : MsgId} {ret : Int} {delivery : Delivery}
    (next : messageNext chave s.callbackMap ret (s.delivery m) = delivery)
    (moved : t.delivery = Function.update s.delivery m delivery)
    (active : t.active =
      if delivery.pc = .finished then s.active.erase (.message m) else s.active)
    (slock : RWLock.Use (Agent.message m) s.callbackMapSlock t.callbackMapSlock false false
      (s.delivery m).pc.readsMap delivery.pc.readsMap) : MessageEffect chave m ret s t := by
  subst delivery
  exact ⟨moved, active, slock⟩

theorem mensagemRecebida_effect {chave : StdString} {m : MsgId} {ret : Int}
    (executed : Connect.mensagemRecebida chave m ret s = some t) :
    MessageEffect chave m ret s t := by
  unfold Connect.mensagemRecebida at executed
  split at executed
  case h_1 pc =>
      obtain ⟨lock, acquired, rfl⟩ := Option.map_eq_some_iff.mp executed
      refine .of_next (by rw [messageNext, pc]) rfl rfl ?_
      rw [pc]
      exact .acquireShared acquired
  case h_3 pc =>
      cases executed
      refine .of_next (by rw [messageNext, pc]) rfl rfl ?_
      rw [pc]
      exact .releaseShared rfl
  case h_4 pc | h_6 pc =>
      split at executed <;> cases executed
      · rename_i holds
        refine .of_next (by simp only [messageNext, pc, if_pos holds]) rfl rfl ?_
        rw [pc]
        exact .none rfl
      · rename_i fails
        refine .of_next (by simp only [messageNext, pc, if_neg fails]) rfl rfl ?_
        rw [pc]
        exact .none rfl
  case h_2 pc | h_5 pc | h_7 pc | h_8 pc =>
      cases executed
      refine .of_next (by rw [messageNext, pc]) rfl rfl ?_
      rw [pc]
      exact .none rfl
  case h_9 => cases executed

/-- The steps that move a run of `mensagemRecebida`. -/
theorem delivery_cases (executed : step program s label = some t) (m : MsgId) :
    t.delivery m = s.delivery m ∧ (∀ ret, label ≠ .message m ret) ∨
      (label = .arrive m ∧ (s.delivery m).pc = .idle ∧
        t.delivery m = { s.delivery m with pc := .acquire }) ∨
      ∃ ret, label = .message m ret ∧
        t.delivery m = messageNext (program.chave m) s.callbackMap ret (s.delivery m) := by
  cases step_effect executed with
  | start | wake | complete | deliver | network => exact Or.inl ⟨rfl, by simp⟩
  | call _ effect => exact Or.inl ⟨congrFun effect.delivery m, by simp⟩
  | handler _ effect => exact Or.inl ⟨congrFun effect.delivery m, by simp⟩
  | @message n ret _ messageStep =>
      have moved := (mensagemRecebida_effect messageStep).delivery
      by_cases own : m = n
      · subst n
        exact Or.inr (Or.inr ⟨ret, rfl, by rw [moved, Function.update_self]⟩)
      · apply Or.inl
        constructor
        · rw [moved, Function.update_of_ne own]
        · rintro other equal
          cases equal
          exact own rfl
  | @arrive n idle =>
      by_cases own : m = n
      · subst n
        exact Or.inr (Or.inl ⟨rfl, idle, by simp [State.setDelivery]⟩)
      · exact Or.inl ⟨by simp [State.setDelivery, own], by simp⟩

/-- The runs that hold a callback and have not called it. -/
def Loaded (m : MsgId) (callback : Callback) (s : State) : Prop :=
  (s.delivery m).callback = callback ∧ callback ≠ Callback.null ∧
    ((s.delivery m).pc = .release ∨ (s.delivery m).pc = .call)

/-- While its key has no entry, no run loads a callback. -/
theorem loaded_of_absent {m : MsgId} {callback : Callback}
    (executed : step program s label = some t)
    (absent : s.callbackMap (program.chave m) = none) (loaded : Loaded m callback t) :
    Loaded m callback s := by
  rcases delivery_cases executed m with ⟨same, _⟩ | ⟨_, _, moved⟩ | ⟨ret, _, moved⟩
  · rw [Loaded, ← same]
    exact loaded
  · obtain ⟨_, _, position⟩ := loaded
    rw [moved] at position
    simp at position
  · obtain ⟨holds, nonNull, position⟩ := loaded
    rw [moved] at holds position
    cases pc : (s.delivery m).pc with
    | lookup =>
        simp only [messageNext, pc, absent, Option.getD_none] at holds
        exact absurd holds.symm nonNull
    | release =>
        simp only [messageNext, pc] at holds
        exact ⟨holds, nonNull, Or.inl pc⟩
    | call =>
        simp only [messageNext, pc] at position
        split at position <;> simp at position
    | test =>
        simp only [messageNext, pc] at position
        split at position <;> simp at position
    | idle | acquire | inside | freeMessage | free | finished =>
        simp [messageNext, pc] at position

/-- A loaded run has done its lookup. -/
theorem exists_looksUp_of_loaded {callbackMap : CallbackMap} {conectado : Bool}
    {history : List (Event State Label)}
    (run : Run (step program) (initial callbackMap conectado) history s) {m : MsgId}
    (position : (s.delivery m).pc = .release ∨ (s.delivery m).pc = .call) :
    ∃ event ∈ history, LooksUp m event := by
  induction run with
  | refl => simp [initial] at position
  | @tail history source target label run executed ih =>
      rcases delivery_cases executed m with ⟨same, _⟩ | ⟨_, _, moved⟩ | ⟨ret, rfl, moved⟩
      · rw [same] at position
        obtain ⟨event, member, looks⟩ := ih position
        exact ⟨event, List.mem_cons_of_mem _ member, looks⟩
      · rw [moved] at position
        simp at position
      · cases pc : (source.delivery m).pc with
        | lookup => exact ⟨_, List.mem_cons_self, ⟨ret, rfl⟩, pc⟩
        | release =>
            obtain ⟨event, member, looks⟩ := ih (Or.inl pc)
            exact ⟨event, List.mem_cons_of_mem _ member, looks⟩
        | call =>
            rw [moved] at position
            simp only [messageNext, pc] at position
            split at position <;> simp at position
        | test =>
            rw [moved] at position
            simp only [messageNext, pc] at position
            split at position <;> simp at position
        | idle | acquire | inside | freeMessage | free | finished =>
            rw [moved] at position
            simp [messageNext, pc] at position

/-- The run is past the call of its callback. -/
def MessagePc.pastCall : MessagePc → Bool
  | inside | test | freeMessage | free | finished => true
  | idle | acquire | lookup | release | call => false

/-- A run never gets back before its call. -/
theorem pastCall_step (executed : step program s label = some t) {m : MsgId}
    (past : (s.delivery m).pc.pastCall = true) : (t.delivery m).pc.pastCall = true := by
  rcases delivery_cases executed m with ⟨same, _⟩ | ⟨_, idle, _⟩ | ⟨ret, _, moved⟩
  · rw [same]
    exact past
  · rw [idle] at past
    cases past
  · rw [moved]
    unfold messageNext
    split <;> try split
    all_goals simp_all [MessagePc.pastCall]

/-- The statement that calls a callback enters it. -/
theorem calls_of_step {m : MsgId} {callback : Callback} {ret : Int}
    (executed : step program s (.message m ret) = some t) (call : (s.delivery m).pc = .call)
    (holds : (s.delivery m).callback = callback) (nonNull : callback ≠ Callback.null) :
    Calls m callback ⟨s, .message m ret, t⟩ := by
  refine ⟨⟨ret, rfl⟩, call, holds, nonNull, ?_⟩
  change (t.delivery m).pc = .inside
  rw [(mensagemRecebida_effect executed).delivery, Function.update_self]
  simp only [messageNext, call, holds, nonNull, if_false]

theorem pastCall_of_calls {event : Event State Label} {m : MsgId} {callback : Callback}
    (calls : Calls m callback event) : (event.target.delivery m).pc.pastCall = true := by
  rw [calls.2.2.2.2]
  rfl

end Steps

/-! ## One callback at a time -/

section Serial

variable {program : Program} {s t : State} {label : Label}

/-- The callbacks that the library is running, after one step. -/
theorem active_cases (executed : step program s label = some t) :
    t.active = s.active ∨ (∃ c, label = .deliver c ∧ t.active = .handler c :: s.active) ∨
      (∃ m, label = .arrive m ∧ t.active = .message m :: s.active) ∨
      (∃ c, t.active = s.active.erase (.handler c)) ∨
      ∃ m, (t.delivery m).pc = .finished ∧ t.active = s.active.erase (.message m) := by
  cases step_effect executed with
  | start | wake | complete | network => exact Or.inl rfl
  | call _ effect => exact Or.inl effect.active
  | @deliver c => exact Or.inr (Or.inl ⟨c, rfl, rfl⟩)
  | @arrive m => exact Or.inr (Or.inr (Or.inl ⟨m, rfl, rfl⟩))
  | @handler c _ _ _ _ effect =>
      rw [effect.active]
      split
      · exact Or.inr (Or.inr (Or.inr (Or.inl ⟨c, rfl⟩)))
      · exact Or.inl rfl
  | @message m _ _ messageStep =>
      have effect := mensagemRecebida_effect messageStep
      rw [effect.active]
      split
      · rename_i finished
        refine Or.inr (Or.inr (Or.inr (Or.inr ⟨m, ?_, rfl⟩)))
        rw [effect.delivery, Function.update_self]
        exact finished
      · exact Or.inl rfl

/-- A run of `mensagemRecebida` that the library has entered and that has not
returned. -/
def MessagePc.inProgress : MessagePc → Bool
  | idle | finished => false
  | _ => true

/-- After it has taken the lock, `mensagemRecebida` is never blocked. -/
theorem mensagemRecebida_enabled {chave : StdString} {m : MsgId} (ret : Int)
    (progress : (s.delivery m).pc.inProgress = true) (acquired : (s.delivery m).pc ≠ .acquire) :
    (Connect.mensagemRecebida chave m ret s).isSome = true := by
  unfold Connect.mensagemRecebida
  cases pc : (s.delivery m).pc with
  | acquire => exact absurd pc acquired
  | call | test =>
      dsimp only
      split <;> rfl
  | lookup | release | inside | freeMessage | free => rfl
  | idle | finished =>
      rw [pc] at progress
      cases progress

/-- The library runs one callback at a time, and every run of
`mensagemRecebida` in progress is that callback. -/
structure SerialInv (s : State) : Prop where
  single : s.active.length ≤ 1
  covers : ∀ m, (s.delivery m).pc.inProgress = true → .message m ∈ s.active

theorem serialInv_initial (callbackMap : CallbackMap) (conectado : Bool) :
    SerialInv (initial callbackMap conectado) where
  single := Nat.zero_le _
  covers m progress := by cases progress

/-- Only an arriving message brings a run into progress. -/
theorem inProgress_of_step (executed : step program s label = some t) {m : MsgId}
    (notArrive : label ≠ .arrive m) (progress : (t.delivery m).pc.inProgress = true) :
    (s.delivery m).pc.inProgress = true := by
  rcases delivery_cases executed m with ⟨same, _⟩ | ⟨arrives, _⟩ | ⟨ret, _, moved⟩
  · rwa [same] at progress
  · exact absurd arrives notArrive
  · rw [moved] at progress
    cases pc : (s.delivery m).pc with
    | idle | finished =>
        simp only [messageNext, pc] at progress
        cases progress
    | _ => rfl

/-- A callback that the library enters while none is running is the only one. -/
theorem serialInv_enter (inv : SerialInv s) (executed : step program s label = some t)
    (free : s.active = []) (enters : label.entersCallback = true) : SerialInv t := by
  have nobody : ∀ m, (s.delivery m).pc.inProgress ≠ true := by
    intro m progress
    have member := inv.covers m progress
    rw [free] at member
    cases member
  cases label with
  | deliver c =>
      constructor
      · cases step_effect executed
        simp [State.setRequest, free]
      · intro m progress
        exact absurd (inProgress_of_step executed (by simp) progress) (nobody m)
  | arrive n =>
      have entered : t.active = [.message n] := by
        cases step_effect executed
        simp [State.setDelivery, free]
      constructor
      · simp [entered]
      · intro m progress
        by_cases own : m = n
        · subst n
          rw [entered]
          exact List.mem_cons_self
        · have other : Label.arrive n ≠ .arrive m := by
            rintro ⟨⟩
            exact own rfl
          exact absurd (inProgress_of_step executed other progress) (nobody m)
  | start | call | wake | complete | handler | message | network => cases enters

/-- Without a new callback the library keeps the running one or leaves it. -/
theorem serialInv_stay (inv : SerialInv s) (executed : step program s label = some t)
    (stays : label.entersCallback = false) : SerialInv t := by
  have shorter : ∀ agent, (s.active.erase agent).length ≤ 1 := fun agent =>
    Nat.le_trans List.length_erase_le inv.single
  have covered : ∀ m, (t.delivery m).pc.inProgress = true → .message m ∈ s.active := by
    intro m progress
    apply inv.covers m
    apply inProgress_of_step executed _ progress
    rintro rfl
    cases stays
  rcases active_cases executed with same | ⟨c, rfl, _⟩ | ⟨m, rfl, _⟩ | ⟨c, active⟩ |
    ⟨n, finished, active⟩
  · constructor
    · rw [same]
      exact inv.single
    · rw [same]
      exact covered
  · cases stays
  · cases stays
  · constructor
    · rw [active]
      exact shorter _
    · intro m progress
      rw [active]
      exact (List.mem_erase_of_ne (by simp)).mpr (covered m progress)
  · constructor
    · rw [active]
      exact shorter _
    · intro m progress
      have other : m ≠ n := by
        rintro rfl
        rw [finished] at progress
        cases progress
      rw [active]
      exact (List.mem_erase_of_ne (by simp [other])).mpr (covered m progress)

theorem serialInv_step (inv : SerialInv s) (executed : serialStep program s label = some t) :
    SerialInv t := by
  have plain := step_of_serialStep executed
  cases enters : label.entersCallback with
  | true =>
      have free : s.active = [] := by
        unfold serialStep at executed
        split at executed
        · cases executed
        · rename_i allowed
          simpa [enters] using allowed
      exact serialInv_enter inv plain free enters
  | false => exact serialInv_stay inv plain enters

theorem serialInv_of_run {callbackMap : CallbackMap} {conectado : Bool}
    {history : List (Event State Label)}
    (run : Run (serialStep program) (initial callbackMap conectado) history s) : SerialInv s :=
  run.invariant SerialInv (serialInv_initial callbackMap conectado)
    fun _ _ _ inv executed => serialInv_step inv executed

/-- Two runs in progress are one. -/
theorem SerialInv.unique (inv : SerialInv s) {m n : MsgId}
    (first : (s.delivery m).pc.inProgress = true)
    (second : (s.delivery n).pc.inProgress = true) : m = n := by
  have firstMember := inv.covers m first
  have secondMember := inv.covers n second
  have single := inv.single
  match active : s.active with
  | [] =>
      rw [active] at firstMember
      cases firstMember
  | [agent] =>
      rw [active] at firstMember secondMember
      have same := (List.mem_singleton.mp firstMember).trans
        (List.mem_singleton.mp secondMember).symm
      cases same
      rfl
  | _ :: _ :: _ =>
      rw [active] at single
      simp at single

end Serial

end PahoClient
