import PahoClient.Client.Messages
import PahoClient.Client.Sequential

/-!
# Callbacks after an unsubscription

An unsubscribe call erases the callbacks of its topics, but a run of
`mensagemRecebida` that has copied a callback before the erasure calls the copy
whenever it gets to it.  The library runs its callbacks one at a time, so there
is at most one such run.
-/

namespace PahoClient

open PahoClient.Transition
open PahoClient.Store

/-- `mensagemRecebida` starts an application callback for a message on the
topic. -/
def Starts (program : Program) (topico : StdString) (event : Event State Label) : Prop :=
  ∃ m callback, Calls m callback event ∧ program.chave m = topico

/-- The call `c` returns a value to the application. -/
def Returns (c : CallId) (value : Bool) (event : Event State Label) : Prop :=
  (event.source.pc c).inProgress = true ∧ event.target.pc c = .returned value

/-- From the start of the call `c` on, no subscribe call for the topic is in
progress. -/
def NoSubscribe (program : Program) (topico : StdString) (c : CallId)
    (history : List (Event State Label)) : Prop :=
  ∀ event ∈ history, event.source.pc c ≠ .idle → ∀ d args, program.op d = .subscribe args →
    topico ∈ args.topicos → (event.source.pc d).inProgress = false

section Runs

variable {program : Program} {s t start : State} {label : Label} {c : CallId}
  {history : List (Event State Label)}

theorem started_of_run (run : Run (step program) start history s)
    (started : start.pc c ≠ .idle) : ∀ event ∈ history, event.source.pc c ≠ .idle := by
  induction run with
  | refl =>
      intro event member
      cases member
  | @tail history source target label run executed ih =>
      have now : source.pc c ≠ .idle :=
        run.preserves (fun state => state.pc c ≠ .idle) started
          fun _ _ step before => started_step step before
      intro event member
      rcases List.mem_cons.mp member with rfl | member
      · exact now
      · exact ih event member

/-- While no subscribe call for a topic is in progress, the topic gets no
entry. -/
theorem absent_of_noSubscribe (run : Run (step program) start history s)
    (inv : Inv program start) {topico : StdString} (absent : start.callbackMap topico = none)
    (started : start.pc c ≠ .idle) (quiet : NoSubscribe program topico c history) :
    s.callbackMap topico = none := by
  rw [callbackMap_of_run run]
  apply Log.replay_of_absent absent
  intro d entries member named
  obtain ⟨event, eventMember, laco, loops, equal⟩ := exists_loop_of_mem_updates member
  obtain ⟨source, executed⟩ := inv.at_event run eventMember
  rw [equal] at named
  have topicos := mem_topicos_of_mem_keys named
  have inserts : laco = .inserir := by
    by_contra erases
    rw [edit_of_erasing executed loops erases] at equal
    cases equal
  subst laco
  obtain ⟨args, op⟩ := subscribe_of_inserir executed loops
  rw [op] at topicos
  have idle := quiet event eventMember (started_of_run run started event eventMember) d args op
    topicos
  rw [inProgress_of_loop source loops] at idle
  cases idle

/-- A run that is loaded while no subscribe call for its topic is in progress
was loaded when the topic lost its entry. -/
theorem loaded_of_noSubscribe {m : MsgId} {callback : Callback}
    (run : Run (step program) start history s) (inv : Inv program start)
    (absent : start.callbackMap (program.chave m) = none) (started : start.pc c ≠ .idle)
    (quiet : NoSubscribe program (program.chave m) c history) (loaded : Loaded m callback s) :
    Loaded m callback start := by
  induction run with
  | refl => exact loaded
  | @tail history source target label run executed ih =>
      obtain ⟨_, older⟩ := List.forall_mem_cons.mp quiet
      have still := absent_of_noSubscribe run inv absent started older
      exact ih older (loaded_of_absent executed still loaded)

/-- A run past its call stays there. -/
theorem pastCall_of_run {m : MsgId} (run : Run (step program) start history s)
    (past : (start.delivery m).pc.pastCall = true) : (s.delivery m).pc.pastCall = true :=
  run.invariant (fun state => (state.delivery m).pc.pastCall = true) past
    fun _ _ _ before executed => pastCall_step executed before

/-- The event at which an unsubscribe call returns runs no loop. -/
theorem lacosBy_of_returns {ret : Event State Label} {topicos : List StdString}
    (executed : step program ret.source ret.label = some ret.target)
    (op : program.op c = .unsubscribe topicos) (returns : Returns c true ret) :
    lacosBy program c [ret] = [] := by
  cases loops : lacosBy program c [ret] with
  | nil => rfl
  | cons laco rest =>
      obtain ⟨later, event, earlier, split, loops⟩ := exists_split_of_mem_lacosBy
        (show laco ∈ lacosBy program c [ret] by rw [loops]; exact List.mem_cons_self)
      have only : ret = event := by
        cases later with
        | nil => exact (List.cons.inj split).1
        | cons first later => simp at split
      subst event
      rcases label_of_lacoOf loops with ⟨code, labelEq, pc⟩ | ⟨_, _, _, args, _, impossible⟩
      · rw [labelEq] at executed
        have next := pc_of_call executed
        rw [returns.2, op] at next
        simp [callNext, pc] at next
      · rw [op] at impossible
        cases impossible

theorem started_of_apagar {event : Event State Label}
    (executed : step program event.source event.label = some event.target)
    (loops : lacoOf program event = some (c, .apagar)) : event.target.pc c ≠ .idle := by
  rcases label_of_lacoOf loops with ⟨_, _, pc⟩ | ⟨_, impossible, _⟩
  · exact started_step executed (by simp [pc])
  · cases impossible

/-- A successful unsubscribe call erases before it returns. -/
theorem exists_erasing {callbackMap : CallbackMap} {conectado : Bool} {topicos : List StdString}
    {ret : Event State Label} {before : List (Event State Label)}
    (run : Run (step program) (initial callbackMap conectado) (ret :: before) ret.target)
    (op : program.op c = .unsubscribe topicos) (returns : Returns c true ret) :
    ∃ later erasing earlier, before = later ++ erasing :: earlier ∧
      lacoOf program erasing = some (c, .apagar) := by
  have inv := inv_initial program callbackMap conectado
  have executed := (Run.cons_iff.mp run).2.1
  have loops := lacosAt_of_run run inv c
  have enters := entered_of_run run inv (c := c) rfl
  have progress := (Inv.of_run run).progress c
  rw [show (initial callbackMap conectado).pc c = .idle from rfl, lacosAt_idle,
    List.append_nil, ← List.singleton_append, lacosBy_append,
    lacosBy_of_returns executed op returns, List.nil_append] at loops
  rw [returns.2, op] at progress enters loops
  have accepted : (ret.target.request c).accepted = true := by
    rcases progress with unissued | ⟨_, _, impossible⟩ | ⟨res, done, _⟩
    · exact absurd unissued enters
    · cases impossible
    · rw [done]
      rfl
  apply exists_split_of_mem_lacosBy
  rw [← loops]
  simp [lacosAt, accepted]

end Runs

section Unsubscribed

variable {program : Program} {c : CallId} {topicos : List StdString} {topico : StdString}
  {callbackMap : CallbackMap} {conectado : Bool} {later earlier : List (Event State Label)}
  {erasing : Event State Label} {s : State}

/-- While no subscribe call for it is in progress, an erased topic stays without
an entry. -/
theorem absent_after_erasing
    (run : Run (step program) (initial callbackMap conectado) (later ++ erasing :: earlier) s)
    (op : program.op c = .unsubscribe topicos) (named : topico ∈ topicos)
    (loops : lacoOf program erasing = some (c, .apagar))
    (quiet : NoSubscribe program topico c later) : s.callbackMap topico = none := by
  obtain ⟨older, executed, newer⟩ := run.split
  have inTopicos : topico ∈ (program.op c).topicos := by
    rw [op]
    exact named
  exact absent_of_noSubscribe newer ((Inv.of_run older).step executed)
    (absent_of_removes executed ⟨Or.inr loops, inTopicos⟩) (started_of_apagar executed loops) quiet

/-- What is loaded for a topic of an unsubscribe call some time after its
erasure was loaded before the erasure, by a lookup. -/
theorem loaded_before_erasing
    (run : Run (step program) (initial callbackMap conectado) (later ++ erasing :: earlier) s)
    (op : program.op c = .unsubscribe topicos) (named : topico ∈ topicos)
    (loops : lacoOf program erasing = some (c, .apagar))
    (quiet : NoSubscribe program topico c later) {m : MsgId} {callback : Callback}
    (key : program.chave m = topico) (loaded : Loaded m callback s) :
    ∃ lookup ∈ earlier, LooksUp m lookup := by
  obtain ⟨older, executed, newer⟩ := run.split
  have inTopicos : topico ∈ (program.op c).topicos := by
    rw [op]
    exact named
  have absent := absent_of_removes executed ⟨Or.inr loops, inTopicos⟩
  rw [← key] at absent quiet
  have before := loaded_of_noSubscribe newer ((Inv.of_run older).step executed) absent
    (started_of_apagar executed loops) quiet loaded
  rcases label_of_lacoOf loops with ⟨code, labelEq, _⟩ | ⟨_, impossible, _⟩
  · rw [labelEq] at executed
    rw [Loaded, (despachar_effect executed).delivery] at before
    exact exists_looksUp_of_loaded older before.2.2
  · cases impossible

end Unsubscribed

/-- The callbacks of a topic that are started after a successful unsubscription
of it: there is at most one, and its run of `mensagemRecebida` had done its
lookup before the erasure of the unsubscribe call and was on its way to the call
when the unsubscribe call returned. -/
theorem callbacks_after_unsubscribe (program : Program) (callbackMap : CallbackMap)
    (conectado : Bool) (history : List (Event State Label)) (s : State)
    (run : Run (serialStep program) (initial callbackMap conectado) history s)
    (c : CallId) (topicos : List StdString) (topico : StdString)
    (op : program.op c = .unsubscribe topicos) (named : topico ∈ topicos)
    (after before : List (Event State Label)) (ret : Event State Label)
    (split : history = after ++ ret :: before) (returns : Returns c true ret)
    (quiet : NoSubscribe program topico c history) :
    (∀ event ∈ after, ∀ m callback, Calls m callback event → program.chave m = topico →
      (∃ later erasing earlier, before = later ++ erasing :: earlier ∧
        lacoOf program erasing = some (c, .apagar) ∧ ∃ lookup ∈ earlier, LooksUp m lookup) ∧
      ((ret.target.delivery m).pc = .release ∨ (ret.target.delivery m).pc = .call)) ∧
    ∀ later event earlier, after = later ++ event :: earlier → Starts program topico event →
      ∀ other ∈ earlier, ¬ Starts program topico other := by
  have plain : Run (step program) (initial callbackMap conectado) history s :=
    run.mono fun _ _ _ serial => step_of_serialStep serial
  rw [split] at run plain quiet
  obtain ⟨earlyRun, returned, lateRun⟩ := plain.split
  have whole : Run (step program) (initial callbackMap conectado) (ret :: before) ret.target :=
    earlyRun.tail returned
  obtain ⟨later, erasing, earlier, rfl, loops⟩ := exists_erasing whole op returns
  have joined : Run (step program) (initial callbackMap conectado)
      ((ret :: later) ++ erasing :: earlier) ret.target := whole
  have recent : NoSubscribe program topico c (ret :: later) := by
    intro event member
    apply quiet
    simp only [List.mem_append, List.mem_cons] at member ⊢
    tauto
  have started : ret.target.pc c ≠ .idle := by simp [returns.2]
  have absent := absent_after_erasing joined op named loops recent
  -- Whatever starts after the return was loaded at the return.
  have atReturn : ∀ newer event older, after = newer ++ event :: older → ∀ m callback,
      Calls m callback event → program.chave m = topico → Loaded m callback ret.target := by
    rintro newer event older rfl m callback ⟨_, pc, holds, nonNull, _⟩ key
    obtain ⟨until_, _, _⟩ := lateRun.split
    rw [← key] at absent quiet
    apply loaded_of_noSubscribe until_ (Inv.of_run whole) absent started _
      ⟨holds, nonNull, Or.inr pc⟩
    intro other member
    apply quiet
    simp [member]
  constructor
  · intro event member m callback calls key
    obtain ⟨newer, older, splitAfter⟩ := List.append_of_mem member
    have loaded := atReturn newer event older splitAfter m callback calls key
    exact ⟨⟨later, erasing, earlier, rfl, loops,
      loaded_before_erasing joined op named loops recent key loaded⟩, loaded.2.2⟩
  · rintro newer event older splitAfter ⟨m, callback, calls, key⟩ other member
      ⟨n, otherCallback, otherCalls, otherKey⟩
    obtain ⟨middle, oldest, rfl⟩ := List.append_of_mem member
    have first := atReturn newer event _ splitAfter m callback calls key
    have second := atReturn (newer ++ event :: middle) other oldest (by simp [splitAfter]) n
      otherCallback otherCalls otherKey
    have serial : SerialInv ret.target := by
      obtain ⟨early, step, _⟩ := run.split
      exact serialInv_of_run (early.tail step)
    have inProgress : ∀ k held, Loaded k held ret.target →
        (ret.target.delivery k).pc.inProgress = true := by
      rintro k held ⟨_, _, release | call⟩
      · rw [release]
        rfl
      · rw [call]
        rfl
    have same : n = m := serial.unique (inProgress n _ second) (inProgress m _ first)
    subst n
    rw [splitAfter] at lateRun
    obtain ⟨until_, _, _⟩ := lateRun.split
    obtain ⟨_, _, rest⟩ := until_.split
    have past := pastCall_of_run rest (pastCall_of_calls otherCalls)
    rw [calls.2.1] at past
    cases past

/-- An unsubscribe call and messages on its topic. -/
def programaDoSilencio : Program where
  op c := if c = 0 then .unsubscribe [[97]] else .conectar
  topico _ := [97]

/-- The unsubscription is completed, a message is looked up, the topic is
erased, the call returns, and the callback is called. -/
def mensagemAtrasada : List Label :=
  [.start 0, .call 0 0, .complete 0 (.onSuccess ⟨0, [], 0⟩), .deliver 0, .handler 0,
    .handler 0, .handler 0, .handler 0, .handler 0, .handler 0, .arrive 5, .message 5 0,
    .message 5 0, .message 5 0, .call 0 0, .call 0 0, .call 0 0, .call 0 0, .call 0 0,
    .call 0 0, .message 5 0]

theorem noSubscribe_programaDoSilencio (history : List (Event State Label)) :
    NoSubscribe programaDoSilencio [97] 0 history := by
  intro event _ _ d args op
  simp only [programaDoSilencio] at op
  split at op <;> cases op

/-- In the run of the late message the callback is called after the return. -/
theorem exists_late_call :
    ∃ history s later ret earlier event,
      Run (serialStep programaDoSilencio) (initial (fun _ => some ⟨7⟩) true) history s ∧
        history = later ++ ret :: earlier ∧ Returns 0 true ret ∧ event ∈ later ∧
        Calls 5 ⟨7⟩ event := by
  obtain ⟨s, run, -⟩ := exists_run_of_execute (serialStep programaDoSilencio)
    (initial (fun _ => some ⟨7⟩) true) mensagemAtrasada (fun s => s.pc 0) (.returned true)
    (by decide)
  obtain ⟨later, ret, earlier, split, returns, found⟩ := exists_split_eventsOf
    (serialStep programaDoSilencio) (initial (fun _ => some ⟨7⟩) true) mensagemAtrasada 19
    (fun event => (event.source.pc 0).inProgress && event.target.pc 0 == .returned true)
    (fun later => later.any fun event => event.label == .message 5 0 &&
      event.source.delivery 5 == ⟨.call, ⟨7⟩, 1⟩ &&
      (event.target.delivery 5).pc == .inside) (by decide)
  simp only [Bool.and_eq_true, beq_iff_eq, List.any_eq_true] at returns found
  obtain ⟨event, member, ⟨labelEq, delivery⟩, inside⟩ := found
  refine ⟨_, s, later, ret, earlier, event, run, split, returns, member, ⟨0, labelEq⟩, ?_⟩
  rw [delivery]
  exact ⟨rfl, rfl, by decide, inside⟩

theorem callbacks_after_unsubscribe_late :
    ∃ earlier lookup, lookup ∈ earlier ∧ LooksUp 5 lookup ∧ ∃ erasing,
      lacoOf programaDoSilencio erasing = some (0, .apagar) ∧
      ∃ later s, Run (serialStep programaDoSilencio) (initial (fun _ => some ⟨7⟩) true)
        (later ++ erasing :: earlier) s := by
  obtain ⟨history, s, later, ret, before, event, run, split, returns, member, calls⟩ :=
    exists_late_call
  obtain ⟨⟨middle, erasing, earlier, rfl, loops, lookup, lookupMember, looks⟩, _⟩ :=
    (callbacks_after_unsubscribe programaDoSilencio _ _ _ s run 0 [[97]] [97] rfl
      List.mem_cons_self later before ret split returns
      (noSubscribe_programaDoSilencio _)).1 event member 5 ⟨7⟩ calls rfl
  refine ⟨earlier, lookup, lookupMember, looks, erasing, loops, later ++ ret :: middle, s, ?_⟩
  rw [split] at run
  simpa using run

/-- A callback can start after the unsubscribe call has returned. -/
theorem not_silent_after_unsubscribe :
    ¬ ∀ (program : Program) (callbackMap : CallbackMap) (conectado : Bool)
      (history : List (Event State Label)) (s : State),
      Run (serialStep program) (initial callbackMap conectado) history s →
        ∀ c topicos topico, program.op c = .unsubscribe topicos → topico ∈ topicos →
        ∀ after before ret, history = after ++ ret :: before → Returns c true ret →
        NoSubscribe program topico c history →
        ∀ event ∈ after, ¬ Starts program topico event := by
  intro silent
  obtain ⟨history, s, later, ret, earlier, event, run, split, returns, member, calls⟩ :=
    exists_late_call
  exact silent programaDoSilencio _ _ history s run 0 [[97]] [97] rfl List.mem_cons_self later
    earlier ret split returns (noSubscribe_programaDoSilencio _) event member ⟨5, ⟨7⟩, calls, rfl⟩

end PahoClient
