import PahoClient.Client.Messages
import PahoClient.Client.Sequential

/-!
# The registration window

The callbacks of a subscription are in the table before its request is handed
to the library and stay there until the request is known to have failed, so a
message that arrives in between is given to the callback of its topic.
-/

namespace PahoClient

open PahoClient.Transition
open PahoClient.Store

/-- The request of the subscribe call `c` is being handed to the library or has
been, was not rejected, and has not been rolled back by its handler. -/
def InWindow (program : Program) (c : CallId) (s : State) : Prop :=
  (s.pc c = .command ∨ s.request c ≠ .unissued) ∧ (∀ ret, s.request c ≠ .rejected ret) ∧
    (s.request c).desfeito (program.op c) = false

section Table

variable {program : Program} {s t start : State} {label : Label}
  {history : List (Event State Label)} {c : CallId} {args : Subscribe.Args}

/-- Inside the window a subscribe call has run its insertion loop and nothing
else. -/
theorem lacosAt_of_inWindow (inv : Inv program s) (op : program.op c = .subscribe args)
    (window : InWindow program c s) :
    lacosAt (program.op c) (s.pc c) (s.request c) = [.inserir] := by
  obtain ⟨invoked, notRejected, notUndone⟩ := window
  have progress := inv.progress c
  rw [op] at progress notUndone ⊢
  rcases invoked with command | issued
  · rw [command] at progress ⊢
    rw [PahoClient.progress] at progress
    simp [lacosAt, progress, Request.desfeito]
  · have accepted : (s.request c).accepted = true := by
      cases request : s.request c with
      | unissued => exact absurd request issued
      | rejected ret => exact absurd request (notRejected ret)
      | _ => rfl
    rw [lacosAt_of_accepted progress accepted, notUndone]
    rfl

/-- A subscribe call that has returned `true` is still inside its window. -/
theorem inWindow_of_returned_true (inv : Inv program s) (op : program.op c = .subscribe args)
    (enters : entered (program.op c) (s.pc c) (s.request c))
    (returned : s.pc c = .returned true) : InWindow program c s := by
  have progress := inv.progress c
  rw [returned] at progress enters
  rw [op] at enters
  rcases progress with unissued | ⟨ret, _, impossible⟩ | ⟨res, done, outcome⟩
  · simp [entered, unissued] at enters
  · cases impossible
  · rw [InWindow, done]
    refine ⟨Or.inr (by simp), by simp, ?_⟩
    rw [Request.desfeito, ← outcome]
    rfl

/-- Inside the window the table holds the callback of every topic that was free
and that no other call names meanwhile. -/
theorem callbackMap_of_inWindow (run : Run (step program) start history s)
    (inv : Inv program start) (op : program.op c = .subscribe args) (idle : start.pc c = .idle)
    (distinct : args.topicos.Nodup) {i : Nat} {topico : StdString} {callback : Callback}
    (topicoAt : args.topicos[i]? = some topico)
    (callbackAt : args.callbacks[i]? = some callback)
    (absent : start.callbackMap topico = none)
    (alone : ∀ event ∈ history, ∀ d, d ≠ c → topico ∈ (program.op d).topicos →
      (event.source.pc d).inProgress = false)
    (window : InWindow program c s) : s.callbackMap topico = some callback := by
  have reached : Inv program s := inv.after_run run
  rw [callbackMap_of_alone run inv idle fun d update => author_of_alone run inv alone,
    lacosAt_of_inWindow reached op window, op]
  simp only [loopUpdates, edit, List.map_cons, List.map_nil, Log.replay_cons, Log.replay_nil,
    Edit.apply]
  rw [Table.insertAll_of_absent _ absent]
  exact lookup_zip_getElem distinct topicoAt callbackAt

/-! ## From the lookup to the call -/

/-- The run of `mensagemRecebida` holds the callback and is about to call it or
has called it. -/
def Commits (m : MsgId) (callback : Callback) (history : List (Event State Label)) (s : State) :
    Prop :=
  (s.delivery m).callback = callback ∧
    ((s.delivery m).pc = .release ∨ (s.delivery m).pc = .call ∨
      (s.delivery m).pc.pastCall = true ∧ ∃ event ∈ history, Calls m callback event)

theorem commits_step {m : MsgId} {callback : Callback} (nonNull : callback ≠ Callback.null)
    (commits : Commits m callback history s) (executed : step program s label = some t) :
    Commits m callback (⟨s, label, t⟩ :: history) t := by
  obtain ⟨holds, position⟩ := commits
  rcases delivery_cases executed m with ⟨same, _⟩ | ⟨_, idle, _⟩ | ⟨ret, rfl, moved⟩
  · rw [Commits, same]
    refine ⟨holds, ?_⟩
    rcases position with release | call | ⟨past, event, member, calls⟩
    · exact Or.inl release
    · exact Or.inr (Or.inl call)
    · exact Or.inr (Or.inr ⟨past, event, List.mem_cons_of_mem _ member, calls⟩)
  · rcases position with release | call | ⟨past, _⟩
    · rw [idle] at release
      cases release
    · rw [idle] at call
      cases call
    · rw [idle] at past
      cases past
  · rw [Commits, moved]
    rcases position with release | call | ⟨past, event, member, calls⟩
    · simp [messageNext, release, holds]
    · have now := calls_of_step executed call holds nonNull
      simp only [messageNext, call, holds, nonNull, if_false]
      exact ⟨trivial, Or.inr (Or.inr ⟨rfl, _, List.mem_cons_self, now⟩)⟩
    · have later : ∃ event ∈ (⟨s, .message m ret, t⟩ : Event State Label) :: history,
          Calls m callback event := ⟨event, List.mem_cons_of_mem _ member, calls⟩
      unfold messageNext
      split <;> try split
      all_goals simp_all [MessagePc.pastCall]

theorem commits_of_run {m : MsgId} {callback : Callback} (nonNull : callback ≠ Callback.null)
    (run : Run (step program) start history s) (commits : Commits m callback [] start) :
    Commits m callback history s := by
  induction run with
  | refl => exact commits
  | tail _ executed ih => exact commits_step nonNull ih executed

/-- The statements between the lookup and the call are never blocked. -/
theorem message_enabled {m : MsgId} (ret : Int)
    (position : (s.delivery m).pc = .release ∨ (s.delivery m).pc = .call) :
    (step program s (.message m ret)).isSome = true := by
  simp only [step, Connect.mensagemRecebida]
  rcases position with release | call
  · simp [release]
  · simp only [call]
    split <;> rfl

end Table

/-- Every run of `mensagemRecebida` whose lookup for a topic of a subscribe call
happens inside the window of the call, or after it has returned `true`, commits
to the callback given with the topic: it calls it, unless it is still on its
unobstructed way from the lookup to the call. -/
theorem registration_window (program : Program) (callbackMap : CallbackMap) (conectado : Bool)
    (before history : List (Event State Label)) (start s : State) (c : CallId)
    (args : Subscribe.Args)
    (reached : Run (step program) (initial callbackMap conectado) before start)
    (run : Run (step program) start history s)
    (op : program.op c = .subscribe args) (idle : start.pc c = .idle)
    (lengths : args.topicos.length = args.callbacks.length) (distinct : args.topicos.Nodup)
    (nonNull : ∀ callback ∈ args.callbacks, callback ≠ Callback.null)
    (later earlier : List (Event State Label)) (lookup : Event State Label)
    (split : history = later ++ lookup :: earlier)
    (m : MsgId) (looks : LooksUp m lookup) (i : Nat)
    (topicoAt : args.topicos[i]? = some (program.chave m))
    (absent : start.callbackMap (program.chave m) = none)
    (alone : ∀ event ∈ earlier, ∀ d, d ≠ c → program.chave m ∈ (program.op d).topicos →
      (event.source.pc d).inProgress = false)
    (window : InWindow program c lookup.source ∨ lookup.source.pc c = .returned true) :
    ∃ callback, args.callbacks[i]? = some callback ∧
      ((∃ event ∈ later, Calls m callback event) ∨
        (s.delivery m).callback = callback ∧
          ((s.delivery m).pc = .release ∨ (s.delivery m).pc = .call) ∧
          ∀ ret, (step program s (.message m ret)).isSome = true) := by
  have inv := Inv.of_run reached
  have bound : i < args.callbacks.length := by
    rw [← lengths]
    exact (List.getElem?_eq_some_iff.mp topicoAt).1
  have callbackAt := List.getElem?_eq_getElem bound
  refine ⟨args.callbacks[i], callbackAt, ?_⟩
  rw [split] at run
  obtain ⟨older, executed, newer⟩ := run.split
  have sourceInv : Inv program lookup.source := inv.after_run older
  have open_ : InWindow program c lookup.source := by
    rcases window with inside | returned
    · exact inside
    · exact inWindow_of_returned_true sourceInv op (entered_of_run older inv idle) returned
  have found := callbackMap_of_inWindow older inv op idle distinct topicoAt callbackAt absent
    alone open_
  obtain ⟨⟨ret, labelEq⟩, pc⟩ := looks
  have commits : Commits m args.callbacks[i] [] lookup.target := by
    rw [labelEq] at executed
    have moved := (mensagemRecebida_effect executed).delivery
    rw [Commits, moved, Function.update_self]
    simp [messageNext, pc, found]
  have final := commits_of_run (nonNull _ (List.getElem_mem bound)) newer commits
  obtain ⟨holds, release | call | ⟨_, called⟩⟩ := final
  · exact Or.inr ⟨holds, Or.inl release, fun ret => message_enabled ret (Or.inl release)⟩
  · exact Or.inr ⟨holds, Or.inr call, fun ret => message_enabled ret (Or.inr call)⟩
  · exact Or.inl called

/-- A subscribe call for two topics, and messages on the second one. -/
def programaDaJanela : Program where
  op c := if c = 0 then .subscribe (.ofPairs [([97], ⟨1⟩), ([98], ⟨2⟩)]) else .conectar
  topico _ := [98, 0, 98]

/-- A message is looked up after the request was accepted and before its
completion. -/
def mensagemAntecipada : List Label :=
  [.start 0, .call 0 0, .call 0 0, .call 0 0, .call 0 0, .call 0 0, .arrive 5, .message 5 0,
    .message 5 0, .message 5 0, .message 5 0, .message 5 1]

theorem registration_window_early :
    ∃ history s, Run (step programaDaJanela) (initial (fun _ => none) true) history s ∧
      s.pc 0 = .waitLock ∧ ∃ event ∈ history, Calls 5 ⟨2⟩ event := by
  obtain ⟨s, run, final⟩ := exists_run_of_execute (step programaDaJanela)
    (initial (fun _ => none) true) mensagemAntecipada (fun s => (s.pc 0, (s.delivery 5).pc))
    (.waitLock, .test) (by decide)
  obtain ⟨lookup, member, found⟩ := exists_mem_eventsOf (step programaDaJanela)
    (initial (fun _ => none) true) mensagemAntecipada
    (fun event => event.label == .message 5 0 && (event.source.delivery 5).pc == .lookup &&
      event.source.request 0 == .pending) (by decide)
  simp only [Prod.mk.injEq, Bool.and_eq_true, beq_iff_eq] at final found
  obtain ⟨⟨labelEq, pc⟩, pending⟩ := found
  obtain ⟨later, earlier, split⟩ := List.append_of_mem member
  obtain ⟨callback, callbackAt, called | ⟨_, position, _⟩⟩ :=
    registration_window programaDaJanela (fun _ => none) true [] _ _ s 0 _ Run.refl run rfl rfl
      rfl (by decide) (by decide) later earlier lookup split 5 ⟨⟨0, labelEq⟩, pc⟩ 1 rfl rfl
      (fun event _ d other named => by simp [programaDaJanela, other, Operation.topicos] at named)
      (Or.inl ⟨Or.inr (by simp [pending]), by simp [pending], by rw [pending]; rfl⟩)
  · cases callbackAt
    obtain ⟨event, eventMember, calls⟩ := called
    refine ⟨_, s, run, final.1, event, ?_, calls⟩
    rw [split]
    exact List.mem_append_left _ eventMember
  · rcases position with release | call
    · rw [final.2] at release
      cases release
    · rw [final.2] at call
      cases call

end PahoClient
