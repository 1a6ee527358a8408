import PahoClient.Client.Sequential

/-!
# Order of requests and order of updates

A subscribe call updates the table before it issues its request and an
unsubscribe call after, so the order of the updates of a topic can differ from
the order in which the library accepted the requests that name it.
-/

namespace PahoClient

open PahoClient.Transition
open PahoClient.Store

/-- The library accepts the request of the call `c`. -/
def Accepts (c : CallId) (event : Event State Label) : Prop :=
  event.label = .call c MQTTASYNC_SUCCESS ∧ event.source.pc c = .command

/-- The request of `c` is the last accepted one among those that name the
topic. -/
def LastAccepted (program : Program) (topico : StdString) (c : CallId)
    (history : List (Event State Label)) : Prop :=
  ∃ later event earlier, history = later ++ event :: earlier ∧ Accepts c event ∧
    topico ∈ (program.op c).topicos ∧
    ∀ other ∈ later, ∀ d, Accepts d other → topico ∉ (program.op d).topicos

/-- Some insertion loop that names the topic is not followed by an erasure loop
that names it. -/
def LastUpdateInserts (program : Program) (topico : StdString)
    (history : List (Event State Label)) : Prop :=
  ∃ later event earlier c, history = later ++ event :: earlier ∧
    lacoOf program event = some (c, .inserir) ∧ topico ∈ (program.op c).topicos ∧
    ∀ removal ∈ later, ∀ d, ¬ Removes program d topico removal

section Runs

variable {program : Program} {s start : State} {history : List (Event State Label)}

/-- A command becomes accepted in an event that accepts it. -/
theorem exists_accepts_of_run (run : Run (step program) start history s) {c : CallId}
    (before : start.request c = .unissued) (accepted : (s.request c).accepted = true) :
    ∃ event ∈ history, Accepts c event := by
  induction run with
  | refl =>
      rw [before] at accepted
      cases accepted
  | @tail history source target label run executed ih =>
      cases already : (source.request c).accepted with
      | true =>
          obtain ⟨event, member, accepts⟩ := ih already
          exact ⟨event, List.mem_cons_of_mem _ member, accepts⟩
      | false =>
          rcases request_cases executed c with same | ⟨ret, rfl, pc, issued⟩ |
            ⟨res, _, pending, _⟩ | ⟨res, _, ready, _⟩ | ⟨res, pc, _, running, _⟩
          · rw [same, already] at accepted
            cases accepted
          · have success : ret = MQTTASYNC_SUCCESS := by
              by_contra failure
              rw [issued, if_neg failure] at accepted
              cases accepted
            subst ret
            exact ⟨_, List.mem_cons_self, rfl, pc⟩
          · rw [pending] at already
            cases already
          · rw [ready] at already
            cases already
          · rw [running] at already
            cases already

/-- A subscribe or unsubscribe call that returns `true` had its command
accepted and run to its end. -/
theorem done_of_returned_true {c : CallId} (inv : Inv program s)
    (enters : entered (program.op c) (s.pc c) (s.request c))
    (uses : (program.op c).usesConexao = false) (returned : s.pc c = .returned true) :
    ∃ res, s.request c = .done res ∧ (program.op c).outcome res = true := by
  have progress := inv.progress c
  rw [returned] at progress enters
  rcases progress with unissued | ⟨ret, _, impossible⟩ | ⟨res, done, outcome⟩
  · cases op : program.op c with
    | subscribe args => simp [op, entered, unissued] at enters
    | unsubscribe topicos => simp [op, entered, unissued] at enters
    | conectar | desconectar => simp [op, Operation.usesConexao] at uses
  · cases impossible
  · exact ⟨res, done, outcome.symm⟩

end Runs

section Settled

variable {program : Program} {s : State} {callbackMap : CallbackMap} {conectado : Bool}
  {history : List (Event State Label)}

/-- A successful call has run its own loop once and no rollback. -/
theorem lacosBy_of_returned_true
    (run : Run (step program) (initial callbackMap conectado) history s) {c : CallId}
    (returned : s.pc c = .returned true) :
    (∀ args, program.op c = .subscribe args → lacosBy program c history = [.inserir]) ∧
      ∀ topicos, program.op c = .unsubscribe topicos →
        lacosBy program c history = [.apagar] := by
  have inv := inv_initial program callbackMap conectado
  have loops := lacosAt_of_run run inv c
  have enters := entered_of_run run inv (c := c) rfl
  rw [show (initial callbackMap conectado).pc c = .idle from rfl, lacosAt_idle,
    List.append_nil] at loops
  rw [← loops]
  constructor
  · intro args op
    obtain ⟨res, done, outcome⟩ :=
      done_of_returned_true (Inv.of_run run) enters (by rw [op]; rfl) returned
    rw [op] at outcome
    simp [op, returned, done, lacosAt, Request.desfeito, outcome]
  · intro topicos op
    obtain ⟨res, done, _⟩ :=
      done_of_returned_true (Inv.of_run run) enters (by rw [op]; rfl) returned
    simp [op, returned, done, lacosAt, Request.accepted]

/-- The request of a successful subscribe call is accepted after its
insertion. -/
theorem accepts_after_inserir
    (run : Run (step program) (initial callbackMap conectado) history s) {c : CallId}
    (returned : s.pc c = .returned true)
    {later earlier : List (Event State Label)} {event : Event State Label}
    (split : history = later ++ event :: earlier)
    (loops : lacoOf program event = some (c, .inserir)) :
    ∃ accepting ∈ later, Accepts c accepting := by
  have enters := entered_of_run run (inv_initial program callbackMap conectado) (c := c) rfl
  have final := Inv.of_run run
  rw [split] at run
  obtain ⟨older, executed, newer⟩ := run.split
  obtain ⟨args, op⟩ := subscribe_of_inserir executed loops
  obtain ⟨res, done, _⟩ := done_of_returned_true final enters (by rw [op]; rfl) returned
  rcases label_of_lacoOf loops with ⟨ret, labelEq, pc⟩ | ⟨_, impossible, _⟩
  · have progress := (Inv.of_run older).progress c
    rw [pc] at progress
    rw [labelEq] at executed
    have same := request_of_call executed
    rw [if_neg (by simp [pc])] at same
    apply exists_accepts_of_run newer (same.trans progress)
    rw [done]
    rfl
  · cases impossible

/-- A topic that gets an entry was inserted. -/
theorem exists_inserir_of_present {start : State} {later : List (Event State Label)}
    (run : Run (step program) start later s) {topico : StdString}
    (absent : start.callbackMap topico = none) (present : s.callbackMap topico ≠ none) :
    ∃ newer event older c, later = newer ++ event :: older ∧
      lacoOf program event = some (c, .inserir) ∧ topico ∈ (program.op c).topicos := by
  by_contra nobody
  apply present
  rw [callbackMap_of_run run]
  apply Log.replay_of_absent absent
  intro c entries member named
  obtain ⟨event, eventMember, laco, loops, equal⟩ := exists_loop_of_mem_updates member
  obtain ⟨newer, older, split⟩ := List.append_of_mem eventMember
  apply nobody
  refine ⟨newer, event, older, c, split, ?_, ?_⟩
  · cases laco with
    | inserir => exact loops
    | desfazer | apagar => cases op : program.op c <;> simp [op, edit] at equal
  · rw [equal] at named
    exact mem_topicos_of_mem_keys named

/-- A topic with an entry was inserted after its last erasure. -/
theorem lastUpdateInserts_of_present
    (run : Run (step program) (initial callbackMap conectado) history s) {topico : StdString}
    {c : CallId} (named : topico ∈ (program.op c).topicos) (returned : s.pc c = .returned true)
    (present : s.callbackMap topico ≠ none) : LastUpdateInserts program topico history := by
  by_cases erased : ∃ event ∈ history, ∃ d, Removes program d topico event
  · obtain ⟨later, removal, earlier, rfl, ⟨d, removes⟩, newest⟩ := exists_newest erased
    obtain ⟨_, executed, after⟩ := run.split
    obtain ⟨newer, event, older, e, rfl, loops, inTopicos⟩ :=
      exists_inserir_of_present after (absent_of_removes executed removes) present
    refine ⟨newer, event, older ++ removal :: earlier, e, by simp, loops, inTopicos, ?_⟩
    intro other member f removesToo
    exact newest other (List.mem_append_left _ member) ⟨f, removesToo⟩
  · have unremoved : ∀ event ∈ history, ∀ d, ¬ Removes program d topico event :=
      fun event member d removes => erased ⟨event, member, d, removes⟩
    cases op : program.op c with
    | conectar | desconectar =>
        rw [op] at named
        cases named
    | subscribe args =>
        have own := (lacosBy_of_returned_true run returned).1 args op
        obtain ⟨later, event, earlier, rfl, loops⟩ := exists_split_of_mem_lacosBy
          (show Laco.inserir ∈ lacosBy program c history by rw [own]; exact List.mem_cons_self)
        exact ⟨later, event, earlier, c, rfl, loops, named,
          fun removal member => unremoved removal (List.mem_append_left _ member)⟩
    | unsubscribe topicos =>
        have own := (lacosBy_of_returned_true run returned).2 topicos op
        obtain ⟨later, event, earlier, rfl, loops⟩ := exists_split_of_mem_lacosBy
          (show Laco.apagar ∈ lacosBy program c history by rw [own]; exact List.mem_cons_self)
        exact absurd ⟨Or.inr loops, named⟩
          (unremoved event (List.mem_append_right _ List.mem_cons_self) c)

/-- The last accepted request that names a topic with an entry is a
subscription. -/
theorem subscribes_of_present
    (run : Run (step program) (initial callbackMap conectado) history s)
    (finished : ∀ c, (program.op c).usesConexao = false →
      s.pc c = .idle ∨ s.pc c = .returned true)
    {topico : StdString} {c : CallId} (last : LastAccepted program topico c history)
    (returned : s.pc c = .returned true) (present : s.callbackMap topico ≠ none) :
    ∃ args, program.op c = .subscribe args := by
  obtain ⟨later, issue, earlier, split, accepts, named, newest⟩ := last
  cases op : program.op c with
  | subscribe args => exact ⟨args, rfl⟩
  | conectar | desconectar =>
      rw [op] at named
      cases named
  | unsubscribe topicos =>
      exfalso
      have own := (lacosBy_of_returned_true run returned).2 topicos op
      have whole := run
      rw [split] at whole own
      obtain ⟨before, executed, after⟩ := whole.split
      -- The request precedes the erasure of an unsubscribe call.
      have nothing : lacosBy program c (issue :: earlier) = [] := by
        have loops := lacosAt_of_run before (inv_initial program callbackMap conectado) c
        rw [accepts.2, op] at loops
        have old : lacosBy program c earlier = [] := (List.append_eq_nil_iff.mp loops.symm).1
        have now : lacosBy program c [issue] = [] := by
          obtain ⟨source, label, target⟩ := issue
          obtain ⟨rfl, pc⟩ := accepts
          rw [lacosBy_call, pc]
        rw [← List.singleton_append, lacosBy_append, now, old]
        rfl
      rw [lacosBy_append, nothing, List.append_nil] at own
      obtain ⟨newer, removal, older, rfl, loops⟩ := exists_split_of_mem_lacosBy
        (show Laco.apagar ∈ lacosBy program c later by rw [own]; exact List.mem_cons_self)
      obtain ⟨_, erases, final⟩ := after.split
      have absent := absent_of_removes erases ⟨Or.inr loops, named⟩
      obtain ⟨newest', insertion, older', d, rfl, inserts, inTopicos⟩ :=
        exists_inserir_of_present final absent present
      obtain ⟨args, subscribes⟩ : ∃ args, program.op d = .subscribe args := by
        obtain ⟨_, executed, _⟩ := final.split
        exact subscribe_of_inserir executed inserts
      have wholeSplit : history = newest' ++ insertion ::
          (older' ++ removal :: older ++ issue :: earlier) := by
        rw [split]
        simp
      have returnedD : s.pc d = .returned true := by
        rcases finished d (by rw [subscribes]; rfl) with idle | returned
        · have loops := lacosAt_of_run run (inv_initial program callbackMap conectado) d
          rw [idle, lacosAt_idle] at loops
          have none := (List.append_eq_nil_iff.mp loops.symm).1
          rw [wholeSplit, lacosBy_append, ← List.singleton_append, lacosBy_append,
            lacosBy_of_loop inserts] at none
          simp at none
        · exact returned
      obtain ⟨accepting, member, acceptsD⟩ :=
        accepts_after_inserir run returnedD wholeSplit inserts
      exact newest accepting (by simp [member]) d acceptsD inTopicos

/-- An insertion that no erasure follows leaves an entry. -/
theorem present_of_lastUpdateInserts
    (run : Run (step program) (initial callbackMap conectado) history s) {topico : StdString}
    (inserts : LastUpdateInserts program topico history) : s.callbackMap topico ≠ none := by
  obtain ⟨later, event, earlier, c, rfl, loops, named, unremoved⟩ := inserts
  obtain ⟨_, executed, after⟩ := run.split
  obtain ⟨args, op⟩ := subscribe_of_inserir executed loops
  have inserted : (event.target.callbackMap topico).isSome = true := by
    rw [callbackMap_of_loop executed loops, op]
    apply Edit.apply_insert_isSome
    rw [op] at named
    exact (keys_inserir args).symm ▸ named
  obtain ⟨callback, present⟩ := Option.isSome_iff_exists.mp inserted
  have kept : s.callbackMap topico = some callback := by
    rw [callbackMap_of_run after]
    apply Log.replay_of_present present
    intro d keys member inKeys
    obtain ⟨removal, removalMember, laco, removalLoops, equal⟩ :=
      exists_loop_of_mem_updates member
    exact unremoved removal removalMember d (removes_of_edit removalLoops equal.symm inKeys)
  simp [kept]

theorem returned_of_lastAccepted
    (run : Run (step program) (initial callbackMap conectado) history s)
    (finished : ∀ c, (program.op c).usesConexao = false →
      s.pc c = .idle ∨ s.pc c = .returned true)
    {topico : StdString} {c : CallId} (last : LastAccepted program topico c history) :
    topico ∈ (program.op c).topicos ∧ s.pc c = .returned true := by
  obtain ⟨later, issue, earlier, rfl, ⟨labelEq, pc⟩, named, _⟩ := last
  obtain ⟨before, executed, after⟩ := run.split
  have inv := (Inv.of_run before).step executed
  rw [labelEq] at executed
  have issued := request_of_call executed
  rw [if_pos pc, if_pos rfl] at issued
  have accepted := accepted_of_run after inv (c := c) (by rw [issued]; rfl)
  have uses : (program.op c).usesConexao = false := by
    cases op : program.op c with
    | subscribe | unsubscribe => rfl
    | conectar | desconectar =>
        rw [op] at named
        cases named
  refine ⟨named, ?_⟩
  rcases finished c uses with idle | returned
  · have progress := (Inv.of_run run).progress c
    rw [idle] at progress
    rw [PahoClient.progress] at progress
    rw [progress] at accepted
    cases accepted
  · exact returned

/-- After all subscribe and unsubscribe calls have returned `true`, a topic has
an entry exactly when the last accepted request that names it is a subscription
and some insertion of the topic is not followed by an erasure of it. -/
theorem entry_iff_last_accepted (program : Program) (callbackMap : CallbackMap)
    (conectado : Bool) (history : List (Event State Label)) (s : State)
    (run : Run (step program) (initial callbackMap conectado) history s)
    (finished : ∀ c, (program.op c).usesConexao = false →
      s.pc c = .idle ∨ s.pc c = .returned true)
    (topico : StdString) (c : CallId) (last : LastAccepted program topico c history) :
    s.callbackMap topico ≠ none ↔
      (∃ args, program.op c = .subscribe args) ∧ LastUpdateInserts program topico history := by
  obtain ⟨named, returned⟩ := returned_of_lastAccepted run finished last
  constructor
  · intro present
    exact ⟨subscribes_of_present run finished last returned present,
      lastUpdateInserts_of_present run named returned present⟩
  · rintro ⟨_, inserts⟩
    exact present_of_lastUpdateInserts run inserts

end Settled

/-- An unsubscribe call and a subscribe call for the same topic. -/
def programaConcorrente : Program where
  op c := if c = 0 then .unsubscribe [[97]]
    else if c = 1 then .subscribe (.ofPairs [([97], ⟨1⟩)]) else .conectar
  topico _ := []

/-- The unsubscription is accepted first and erases last. -/
def apagaPorUltimo : List Label :=
  [.start 0, .call 0 0, .start 1, .call 1 0, .call 1 0, .call 1 0, .call 1 0, .call 1 0,
    .call 0 0, .call 0 0, .call 0 0, .complete 0 (.onSuccess ⟨0, [], 0⟩), .deliver 0,
    .handler 0, .handler 0, .handler 0, .handler 0, .handler 0, .handler 0,
    .complete 1 (.onSuccess ⟨1, [], 0⟩), .deliver 1, .handler 1, .handler 1, .handler 1,
    .handler 1, .handler 1, .handler 1, .call 0 0, .call 0 0, .call 0 0, .call 1 0, .call 1 0,
    .call 1 0]

/-- The unsubscription returns before the subscription starts. -/
def apagaPrimeiro : List Label :=
  [.start 0, .call 0 0, .call 0 0, .call 0 0, .call 0 0, .complete 0 (.onSuccess ⟨0, [], 0⟩),
    .deliver 0, .handler 0, .handler 0, .handler 0, .handler 0, .handler 0, .handler 0,
    .call 0 0, .call 0 0, .call 0 0, .start 1, .call 1 0, .call 1 0, .call 1 0, .call 1 0,
    .call 1 0, .complete 1 (.onSuccess ⟨1, [], 0⟩), .deliver 1, .handler 1, .handler 1,
    .handler 1, .handler 1, .handler 1, .handler 1, .call 1 0, .call 1 0, .call 1 0]

theorem finished_programaConcorrente {s : State} (first : s.pc 0 = .returned true)
    (second : s.pc 1 = .returned true) (c : CallId)
    (uses : (programaConcorrente.op c).usesConexao = false) :
    s.pc c = .idle ∨ s.pc c = .returned true := by
  by_cases zero : c = 0
  · subst c
    exact Or.inr first
  · by_cases one : c = 1
    · subst c
      exact Or.inr second
    · simp [programaConcorrente, zero, one, Operation.usesConexao] at uses

/-- No request is accepted at an event that passes the test. -/
theorem not_accepts_of_test {event : Event State Label} {d : CallId}
    (passed : atCalls (fun c s => s.pc c != .command) event = true) : ¬ Accepts d event := by
  rintro ⟨labelEq, pc⟩
  simp [atCalls, labelEq, pc] at passed

theorem entry_iff_last_accepted_sequential :
    ∃ history s, Run (step programaConcorrente) (initial (fun _ => none) true) history s ∧
      LastAccepted programaConcorrente [97] 1 history ∧
      LastUpdateInserts programaConcorrente [97] history := by
  obtain ⟨s, run, final⟩ := exists_run_of_execute (step programaConcorrente)
    (initial (fun _ => none) true) apagaPrimeiro
    (fun s => (s.pc 0, s.pc 1, s.callbackMap [97]))
    (.returned true, .returned true, some ⟨1⟩) (by decide)
  obtain ⟨later, issue, earlier, split, found, quiet⟩ := exists_split_eventsOf
    (step programaConcorrente) (initial (fun _ => none) true) apagaPrimeiro 21
    (fun event => event.label == .call 1 MQTTASYNC_SUCCESS && event.source.pc 1 == .command)
    (fun later => later.all (atCalls fun c s => s.pc c != .command)) (by decide)
  simp only [Prod.mk.injEq, Bool.and_eq_true, beq_iff_eq, List.all_eq_true] at final found quiet
  have last : LastAccepted programaConcorrente [97] 1 _ :=
    ⟨later, issue, earlier, split, found, List.mem_cons_self,
      fun other member d accepts => absurd accepts (not_accepts_of_test (quiet other member))⟩
  have decided := entry_iff_last_accepted programaConcorrente _ _ _ s run
    (finished_programaConcorrente final.1 final.2.1) [97] 1 last
  exact ⟨_, s, run, last, (decided.mp (by simp [final.2.2])).2⟩

/-- The subscription is accepted last and the topic has no entry. -/
theorem entry_not_decided_by_last_accepted :
    ¬ ∀ (program : Program) (callbackMap : CallbackMap) (conectado : Bool)
      (history : List (Event State Label)) (s : State),
      Run (step program) (initial callbackMap conectado) history s →
        (∀ c, (program.op c).usesConexao = false → s.pc c = .idle ∨ s.pc c = .returned true) →
        ∀ topico c, LastAccepted program topico c history →
          (s.callbackMap topico ≠ none ↔ ∃ args, program.op c = .subscribe args) := by
  intro decided
  obtain ⟨s, run, final⟩ := exists_run_of_execute (step programaConcorrente)
    (initial (fun _ => none) true) apagaPorUltimo
    (fun s => (s.pc 0, s.pc 1, s.callbackMap [97]))
    (.returned true, .returned true, none) (by decide)
  obtain ⟨later, issue, earlier, split, found, quiet⟩ := exists_split_eventsOf
    (step programaConcorrente) (initial (fun _ => none) true) apagaPorUltimo 7
    (fun event => event.label == .call 1 MQTTASYNC_SUCCESS && event.source.pc 1 == .command)
    (fun later => later.all (atCalls fun c s => s.pc c != .command)) (by decide)
  simp only [Prod.mk.injEq, Bool.and_eq_true, beq_iff_eq, List.all_eq_true] at final found quiet
  have last : LastAccepted programaConcorrente [97] 1 _ :=
    ⟨later, issue, earlier, split, found, List.mem_cons_self,
      fun other member d accepts => absurd accepts (not_accepts_of_test (quiet other member))⟩
  have present := (decided programaConcorrente _ _ _ s run
    (finished_programaConcorrente final.1 final.2.1) [97] 1 last).mpr ⟨_, rfl⟩
  exact present final.2.2

end PahoClient
