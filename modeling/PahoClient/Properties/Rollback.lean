import PahoClient.Client.Registration

/-!
# What a failed subscription leaves behind

The rollback loops of a subscribe call erase all of its topics, also those whose
entries the insertion loop found in place.  The loops are compared with the
owners of the entries they meet.
-/

namespace PahoClient

open PahoClient.Transition
open PahoClient.Store

/-- The call whose insertion put the current entry of a topic, if one did. -/
def entryOwner (program : Program) (callbackMap : CallbackMap)
    (history : List (Event State Label)) (topico : StdString) : Option CallId :=
  Log.owner callbackMap (updates program history) topico

/-- The subscribe call `c` has failed without a trace: it owns no entry any
more, none of its loops changed an entry that it did not own, and the entries
that its insertion loop found in place are there unless other calls removed
them. -/
structure FailsClean (program : Program) (callbackMap : CallbackMap)
    (history : List (Event State Label)) (s : State) (c : CallId) : Prop where
  own : ∀ topico ∈ (program.op c).topicos, entryOwner program callbackMap history topico ≠ some c
  others : ∀ later event earlier, history = later ++ event :: earlier →
    ∀ laco, lacoOf program event = some (c, laco) → ∀ topico callback,
      event.source.callbackMap topico = some callback →
      entryOwner program callbackMap earlier topico ≠ some c →
      event.target.callbackMap topico = some callback
  found : ∀ later event earlier, history = later ++ event :: earlier →
    lacoOf program event = some (c, .inserir) → ∀ topico ∈ (program.op c).topicos, ∀ callback,
      event.source.callbackMap topico = some callback →
      s.callbackMap topico = some callback ∨
        ∃ removal ∈ later, ∃ d, d ≠ c ∧ Removes program d topico removal

/-- Every rollback loop of the call meets only topics without an entry and
entries that the call has inserted itself. -/
def RollsBackOwn (program : Program) (callbackMap : CallbackMap)
    (history : List (Event State Label)) (c : CallId) : Prop :=
  ∀ later event earlier, history = later ++ event :: earlier →
    lacoOf program event = some (c, .desfazer) → ∀ topico ∈ (program.op c).topicos,
      event.source.callbackMap topico = none ∨
        entryOwner program callbackMap earlier topico = some c

section Loops

variable {program : Program} {s : State} {callbackMap : CallbackMap} {conectado : Bool}
  {history : List (Event State Label)} {c : CallId} {args : Subscribe.Args}

/-- A failed subscribe call has run no loop at all or its insertion followed by
one rollback. -/
theorem lacosBy_of_failed
    (run : Run (step program) (initial callbackMap conectado) history s)
    (op : program.op c = .subscribe args) (failed : s.pc c = .returned false) :
    lacosBy program c history = [] ∨ lacosBy program c history = [.desfazer, .inserir] := by
  have loops := lacosAt_of_run run (inv_initial program callbackMap conectado) c
  have progress := (Inv.of_run run).progress c
  rw [op, failed] at loops progress
  have nothing : lacosAt (.subscribe args) ((initial callbackMap conectado).pc c)
      ((initial callbackMap conectado).request c) = [] := rfl
  rw [nothing, List.append_nil] at loops
  rw [← loops]
  rcases progress with unissued | ⟨ret, rejected, _⟩ | ⟨res, done, outcome⟩
  · rw [unissued]
    exact Or.inl rfl
  · rw [rejected]
    exact Or.inr rfl
  · rw [done]
    exact Or.inr (by simp [lacosAt, Request.desfeito, ← outcome])

/-- Around the insertion of a failed call lies its rollback and nothing else. -/
theorem lacosBy_around_inserir
    (run : Run (step program) (initial callbackMap conectado) history s)
    (op : program.op c = .subscribe args) (failed : s.pc c = .returned false)
    {later earlier : List (Event State Label)} {event : Event State Label}
    (split : history = later ++ event :: earlier)
    (loops : lacoOf program event = some (c, .inserir)) :
    lacosBy program c later = [.desfazer] ∧ lacosBy program c earlier = [] := by
  have whole : lacosBy program c history =
      lacosBy program c later ++ .inserir :: lacosBy program c earlier := by
    rw [split, lacosBy_append, ← List.singleton_append, lacosBy_append, lacosBy_of_loop loops]
    rfl
  rcases lacosBy_of_failed run op failed with none | both
  · simp [none] at whole
  · rw [both] at whole
    cases first : lacosBy program c later with
    | nil => simp [first] at whole
    | cons laco rest =>
        rw [first] at whole
        cases rest with
        | nil =>
            simp only [List.cons_append, List.nil_append, List.cons.injEq] at whole
            obtain ⟨rfl, _, rest⟩ := whole
            exact ⟨rfl, rest.symm⟩
        | cons second rest => simp at whole

/-- After its rollback a call owns no entry under its topics. -/
theorem entryOwner_ne_of_failed
    (run : Run (step program) (initial callbackMap conectado) history s)
    (op : program.op c = .subscribe args) (failed : s.pc c = .returned false)
    {topico : StdString} (named : topico ∈ args.topicos) :
    entryOwner program callbackMap history topico ≠ some c := by
  intro owned
  obtain ⟨later, entries, earlier, split, unerased⟩ := Log.exists_insert_of_owner owned
  have own := updates_filter program c history
  rw [split, List.filter_append, List.filter_cons_of_pos (by simp)] at own
  rcases lacosBy_of_failed run op failed with none | both
  · simp [none] at own
  · rw [both, op] at own
    simp only [edit, List.map_cons, List.map_nil] at own
    cases first : later.filter fun entry => entry.1 = c with
    | nil => simp [first] at own
    | cons entry rest =>
        simp only [first, List.cons_append, List.cons.injEq] at own
        have member : entry ∈ later :=
          (List.mem_filter.mp (by rw [first]; exact List.mem_cons_self)).1
        rw [own.1] at member
        exact unerased c args.topicos member named

/-- Between the insertion of a call and its rollback no loop of the call
runs. -/
theorem exists_rollback_after
    (run : Run (step program) (initial callbackMap conectado) history s)
    (op : program.op c = .subscribe args) (failed : s.pc c = .returned false)
    {later earlier : List (Event State Label)} {event : Event State Label}
    (split : history = later ++ event :: earlier)
    (loops : lacoOf program event = some (c, .inserir)) :
    ∃ newer rollback between, later = newer ++ rollback :: between ∧
      lacoOf program rollback = some (c, .desfazer) ∧ lacosBy program c between = [] := by
  have own := (lacosBy_around_inserir run op failed split loops).1
  have member : Laco.desfazer ∈ lacosBy program c later := by
    rw [own]
    exact List.mem_cons_self
  obtain ⟨newer, rollback, between, rfl, rollbackLoops⟩ :=
    exists_split_of_mem_lacosBy member
  refine ⟨newer, rollback, between, rfl, rollbackLoops, ?_⟩
  rw [lacosBy_append, ← List.singleton_append, lacosBy_append,
    lacosBy_of_loop rollbackLoops] at own
  cases first : lacosBy program c newer with
  | nil => simpa [first] using own
  | cons laco rest =>
      rw [first] at own
      simp at own

/-- An entry that the insertion loop found in place and that no other call
removes meets the rollback loop, still owned by somebody else. -/
theorem foreign_at_rollback
    (run : Run (step program) (initial callbackMap conectado) history s)
    (op : program.op c = .subscribe args) (failed : s.pc c = .returned false)
    {newer between earlier : List (Event State Label)} {rollback event : Event State Label}
    (split : history = (newer ++ rollback :: between) ++ event :: earlier)
    (loops : lacoOf program event = some (c, .inserir))
    (quiet : lacosBy program c between = []) {topico : StdString} {callback : Callback}
    (present : event.source.callbackMap topico = some callback)
    (unremoved : ∀ removal ∈ between, ∀ d, d ≠ c → ¬ Removes program d topico removal) :
    rollback.source.callbackMap topico = some callback ∧
      entryOwner program callbackMap (between ++ event :: earlier) topico ≠ some c := by
  have before : Run (step program) (initial callbackMap conectado) (between ++ event :: earlier)
      rollback.source := by
    rw [split, List.append_assoc, List.cons_append] at run
    exact run.split.1
  obtain ⟨older, executed, _⟩ := before.split
  -- What the log says about the entry before the insertion.
  have inPlace : Log.replay callbackMap (updates program earlier) topico = some callback := by
    have table := callbackMap_of_run older
    rw [← present, table]
    rfl
  have unerased : ∀ a keys, (a, Edit.erase keys) ∈ updates program (between ++ [event]) →
      topico ∉ keys := by
    intro a keys member named
    rw [updates_append, List.mem_append] at member
    rcases member with inside | inserted
    · obtain ⟨removal, removalMember, laco, removalLoops, equal⟩ :=
        exists_loop_of_mem_updates inside
      exact unremoved removal removalMember a (author_ne_of_lacosBy_eq_nil quiet inside)
        (removes_of_edit removalLoops equal.symm named)
    · rw [updates_of_loop loops, op] at inserted
      simp [edit] at inserted
  have joined : updates program (between ++ event :: earlier) =
      updates program (between ++ [event]) ++ updates program earlier := by
    rw [← updates_append, List.append_assoc, List.singleton_append]
  constructor
  · rw [callbackMap_of_run before, joined, Log.replay_append]
    exact Log.replay_of_present inPlace unerased
  · rw [entryOwner, joined, Log.owner_append_of_present inPlace unerased]
    intro owned
    obtain ⟨later, entries, oldest, log, _⟩ := Log.exists_insert_of_owner owned
    have none := (lacosBy_around_inserir run op failed split loops).2
    have member : (c, Edit.insert entries) ∈ updates program earlier := by
      rw [log]
      exact List.mem_append_right _ List.mem_cons_self
    exact author_ne_of_lacosBy_eq_nil none member rfl

/-- A failed subscribe call leaves no trace and removes nothing that is not its
own exactly when its rollback meets no entry of somebody else. -/
theorem failed_subscribe_clean_iff (program : Program) (callbackMap : CallbackMap)
    (conectado : Bool) (history : List (Event State Label)) (s : State) (c : CallId)
    (args : Subscribe.Args)
    (run : Run (step program) (initial callbackMap conectado) history s)
    (op : program.op c = .subscribe args) (failed : s.pc c = .returned false) :
    FailsClean program callbackMap history s c ↔
      RollsBackOwn program callbackMap history c := by
  constructor
  · intro clean later rollback earlier split loops topico named
    have executed : step program rollback.source rollback.label = some rollback.target := by
      rw [split] at run
      exact run.split.2.1
    rw [op] at named
    have erased : rollback.target.callbackMap topico = none := by
      rw [callbackMap_of_loop executed loops, op]
      exact Edit.apply_erase_of_mem _ named
    by_contra foreign
    rw [not_or] at foreign
    obtain ⟨callback, present⟩ := Option.ne_none_iff_exists'.mp foreign.1
    have kept := clean.others later rollback earlier split _ loops topico callback present foreign.2
    rw [erased] at kept
    cases kept
  · intro own
    constructor
    · intro topico named
      rw [op] at named
      exact entryOwner_ne_of_failed run op failed named
    · intro later event earlier split laco loops topico callback present foreign
      have executed : step program event.source event.label = some event.target := by
        rw [split] at run
        exact run.split.2.1
      rw [callbackMap_of_loop executed loops, op]
      cases laco with
      | inserir => exact Edit.apply_insert_of_present _ present
      | apagar => exact present
      | desfazer =>
          have unnamed : topico ∉ args.topicos := by
            intro named
            rw [← show (program.op c).topicos = args.topicos by rw [op]; rfl] at named
            rcases own later event earlier split loops topico named with absent | owned
            · rw [present] at absent
              cases absent
            · exact foreign owned
          rw [edit, Edit.apply_of_not_mem _ unnamed, present]
    · intro later event earlier split loops topico named callback present
      obtain ⟨newer, rollback, between, rfl, rollbackLoops, quiet⟩ :=
        exists_rollback_after run op failed split loops
      by_contra gone
      rw [not_or] at gone
      have unremoved : ∀ removal ∈ between, ∀ d, d ≠ c → ¬ Removes program d topico removal := by
        intro removal member d other removes
        apply gone.2
        exact ⟨removal, List.mem_append_right _ (List.mem_cons_of_mem _ member), d, other, removes⟩
      obtain ⟨still, foreign⟩ :=
        foreign_at_rollback run op failed split loops quiet present unremoved
      have older : history = newer ++ rollback :: (between ++ event :: earlier) := by
        rw [split, List.append_assoc, List.cons_append]
      rcases own newer rollback _ older rollbackLoops topico named with absent | owned
      · rw [still] at absent
        cases absent
      · exact foreign owned

end Loops

/-- One subscribe call among unsubscribe calls on the same topic. -/
def programaDeUm : Program where
  op c := if c = 0 then .subscribe topicoUnico else .unsubscribe [[97]]
  topico _ := []

/-- The library rejects the request of the subscribe call. -/
def inscricaoRejeitada : List Label :=
  [.start 0, .call 0 0, .call 0 0, .call 0 0, .call 0 0, .call 0 (-1), .call 0 0, .call 0 0,
    .call 0 0]

/-- The request is accepted, another call removes the topic, and then the
request fails. -/
def inscricaoCancelada : List Label :=
  [.start 0, .call 0 0, .call 0 0, .call 0 0, .call 0 0, .call 0 0,
    .start 1, .call 1 0, .call 1 0, .call 1 0, .call 1 0,
    .complete 0 (.onFailure none), .deliver 0, .handler 0, .handler 0, .handler 0, .handler 0,
    .handler 0, .handler 0, .handler 0, .handler 0, .handler 0, .call 0 0, .call 0 0, .call 0 0]

theorem failed_subscribe_clean_iff_cancelled :
    ∃ history s, Run (step programaDeUm) (initial tabelaComUm true) history s ∧
      s.pc 0 = .returned false ∧ FailsClean programaDeUm tabelaComUm history s 0 := by
  obtain ⟨s, run, failed⟩ := exists_run_of_execute (step programaDeUm)
    (initial tabelaComUm true) inscricaoCancelada (fun s => s.pc 0) (.returned false)
    (by decide)
  have empty := forall_mem_eventsOf (step programaDeUm) (initial tabelaComUm true)
    inscricaoCancelada (fun event => lacoOf programaDeUm event != some (0, .desfazer) ||
      event.source.callbackMap [97] == none) (by decide)
  refine ⟨_, s, run, failed,
    (failed_subscribe_clean_iff _ _ _ _ _ 0 topicoUnico run rfl failed).mpr ?_⟩
  intro later event earlier split loops topico named
  have absent := empty event (by rw [split]; exact List.mem_append_right _ List.mem_cons_self)
  have only : topico = [97] := List.mem_singleton.mp named
  subst topico
  simp only [loops, bne_self_eq_false, Bool.false_or, beq_iff_eq] at absent
  exact Or.inl absent

/-- A rejected subscription removes the registration that was there before. -/
theorem failed_subscribe_not_always_clean :
    ¬ ∀ (program : Program) (callbackMap : CallbackMap) (conectado : Bool)
      (history : List (Event State Label)) (s : State) (c : CallId) (args : Subscribe.Args),
      Run (step program) (initial callbackMap conectado) history s →
        program.op c = .subscribe args → s.pc c = .returned false →
        FailsClean program callbackMap history s c := by
  intro clean
  obtain ⟨s, run, final⟩ := exists_run_of_execute (step programaDeUm)
    (initial tabelaComUm true) inscricaoRejeitada
    (fun s => (s.pc 0, s.callbackMap [97])) (.returned false, none) (by decide)
  obtain ⟨event, member, found⟩ := exists_mem_eventsOf (step programaDeUm)
    (initial tabelaComUm true) inscricaoRejeitada
    (fun event => lacoOf programaDeUm event == some (0, .inserir) &&
      event.source.callbackMap [97] == some ⟨7⟩) (by decide)
  have alone := forall_mem_eventsOf (step programaDeUm) (initial tabelaComUm true)
    inscricaoRejeitada (fun event => match lacoOf programaDeUm event with
      | some (d, _) => d == 0
      | none => true) (by decide)
  simp only [Prod.mk.injEq, Bool.and_eq_true, beq_iff_eq] at final found
  obtain ⟨later, earlier, split⟩ := List.append_of_mem member
  have fails := clean _ _ _ _ _ 0 topicoUnico run rfl final.1
  rcases fails.found later event earlier split found.1 [97] List.mem_cons_self ⟨7⟩ found.2 with
    kept | ⟨removal, removalMember, d, other, loops | loops, _⟩
  · rw [final.2] at kept
    cases kept
  all_goals
    have only := alone removal (by rw [split]; exact List.mem_append_left _ removalMember)
    rw [loops] at only
    exact other (by simpa using only)

end PahoClient
