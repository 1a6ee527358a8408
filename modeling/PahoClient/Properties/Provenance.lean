import PahoClient.Client.Messages
import PahoClient.Client.Sequential

/-!
# Where an invoked callback comes from

`mensagemRecebida` calls the copy it took of a table entry.  An entry of the
table is either one that the client started with or one that the insertion loop
of a subscribe call put under a free key, and it is there only as long as no
loop erases its topic.  An invoked callback therefore goes back to one
registration, which was in force at the lookup.
-/

namespace PahoClient

open PahoClient.Transition
open PahoClient.Store

/-- The client started with the entry and no loop of the history erases its
topic. -/
def Inherited (program : Program) (callbackMap : CallbackMap) (topico : StdString)
    (callback : Callback) (history : List (Event State Label)) : Prop :=
  callbackMap topico = some callback ∧
    ∀ event ∈ history, ∀ d, ¬ Removes program d topico event

/-- The vectors give the callback for the topic at the first place that names
it. -/
def FirstOffers (args : Subscribe.Args) (topico : StdString) (callback : Callback) : Prop :=
  ∃ i : Nat, args.topicos[i]? = some topico ∧ args.callbacks[i]? = some callback ∧
    ∀ j < i, args.topicos[j]? ≠ some topico

/-- The loop of a subscribe call finds the topic free and inserts the callback
under it. -/
def InsertsFree (program : Program) (topico : StdString) (callback : Callback)
    (event : Event State Label) : Prop :=
  event.source.callbackMap topico = none ∧ ∃ c args, program.op c = .subscribe args ∧
    lacoOf program event = some (c, .inserir) ∧ FirstOffers args topico callback

/-- A subscribe call has inserted the callback under the free topic and no loop
has erased the topic since. -/
def InForce (program : Program) (topico : StdString) (callback : Callback)
    (history : List (Event State Label)) : Prop :=
  ∃ since insertion before, history = since ++ insertion :: before ∧
    InsertsFree program topico callback insertion ∧
    ∀ event ∈ since, ∀ d, ¬ Removes program d topico event

/-! ## The entries of the table -/

section Entries

variable {program : Program} {callbackMap : CallbackMap} {conectado : Bool} {s t : State}
  {label : Label} {history : List (Event State Label)} {topico : StdString} {callback : Callback}

theorem Inherited.cons {event : Event State Label}
    (inherited : Inherited program callbackMap topico callback history)
    (kept : ∀ d, ¬ Removes program d topico event) :
    Inherited program callbackMap topico callback (event :: history) :=
  ⟨inherited.1, List.forall_mem_cons.mpr ⟨kept, inherited.2⟩⟩

theorem InForce.cons {event : Event State Label}
    (registered : InForce program topico callback history)
    (kept : ∀ d, ¬ Removes program d topico event) :
    InForce program topico callback (event :: history) := by
  obtain ⟨since, insertion, before, rfl, inserts, unerased⟩ := registered
  exact ⟨event :: since, insertion, before, rfl, inserts,
    List.forall_mem_cons.mpr ⟨kept, unerased⟩⟩

/-- An insertion loop leaves the entries it finds and fills free keys. -/
theorem entry_of_inserir {event : Event State Label} {c : CallId}
    (executed : step program event.source event.label = some event.target)
    (loops : lacoOf program event = some (c, .inserir)) :
    event.target.callbackMap topico = some callback ↔
      event.source.callbackMap topico = some callback ∨
        InsertsFree program topico callback event := by
  obtain ⟨args, op⟩ := subscribe_of_inserir executed loops
  rw [callbackMap_of_loop executed loops, op, edit, Edit.apply, Table.insertAll_apply]
  cases present : event.source.callbackMap topico with
  | none =>
      rw [Option.none_or, lookup_zip_eq_some_iff]
      constructor
      · intro found
        exact Or.inr ⟨present, c, args, op, loops, found⟩
      · rintro (impossible | ⟨_, d, others, otherOp, otherLoops, found⟩)
        · cases impossible
        · rw [loops] at otherLoops
          cases otherLoops
          rw [op] at otherOp
          cases otherOp
          exact found
  | some value => simp [InsertsFree, present]

/-- An erasure loop leaves the entries of the topics it does not name. -/
theorem entry_of_erasing {event : Event State Label} {c : CallId} {laco : Laco}
    (executed : step program event.source event.label = some event.target)
    (loops : lacoOf program event = some (c, laco)) (erases : laco ≠ .inserir) :
    event.target.callbackMap topico = some callback ↔
      event.source.callbackMap topico = some callback ∧
        topico ∉ (program.op c).topicos := by
  rw [callbackMap_of_loop executed loops, edit_of_erasing executed loops erases]
  by_cases named : topico ∈ (program.op c).topicos
  · simp [Edit.apply_erase_of_mem _ named, named]
  · rw [Edit.apply, Table.eraseAll_of_not_mem named]
    simp [named]

/-- One step leaves an entry that its loop does not erase, and makes one by an
insertion under a free key. -/
theorem entry_step {event : Event State Label}
    (executed : step program event.source event.label = some event.target) :
    event.target.callbackMap topico = some callback ↔
      (event.source.callbackMap topico = some callback ∧
          ∀ d, ¬ Removes program d topico event) ∨
        InsertsFree program topico callback event := by
  cases loops : lacoOf program event with
  | none =>
      have same : event.target.callbackMap = event.source.callbackMap := by
        rw [callbackMap_step executed]
        simp [updates, lacos, loops]
      simp [same, Removes, InsertsFree, loops]
  | some entry =>
      obtain ⟨c, laco⟩ := entry
      by_cases inserts : laco = .inserir
      · subst laco
        have kept : ∀ d, ¬ Removes program d topico event := by
          rintro d ⟨other | other, _⟩ <;> simp [loops] at other
        rw [entry_of_inserir executed loops]
        simp [kept]
      · have removes : (∀ d, ¬ Removes program d topico event) ↔
            topico ∉ (program.op c).topicos := by
          constructor
          · intro kept named
            exact kept c (removes_of_edit loops (edit_of_erasing executed loops inserts) named)
          · rintro unnamed d ⟨other | other, named⟩
            all_goals
              rw [loops] at other
              cases other
              exact unnamed named
        have notFree : ¬ InsertsFree program topico callback event := by
          rintro ⟨_, d, args, _, otherLoops, _⟩
          rw [loops] at otherLoops
          cases otherLoops
          exact inserts rfl
        rw [entry_of_erasing executed loops inserts, removes]
        simp [notFree]

/-- The entries of the table are those of the start that were never erased and
those of the insertions that have not been erased since. -/
theorem entry_iff_registration
    (run : Run (step program) (initial callbackMap conectado) history s) :
    s.callbackMap topico = some callback ↔
      Inherited program callbackMap topico callback history ∨
        InForce program topico callback history := by
  induction run with
  | refl =>
      constructor
      · intro present
        exact Or.inl ⟨present, by simp⟩
      · rintro (⟨present, _⟩ | ⟨since, insertion, before, split, _⟩)
        · exact present
        · simp at split
  | @tail history source target label _ executed ih =>
      have newest := @entry_step program topico callback ⟨source, label, target⟩ executed
      rw [newest, ih]
      constructor
      · rintro (⟨inherited | registered, kept⟩ | inserts)
        · exact Or.inl (inherited.cons kept)
        · exact Or.inr (registered.cons kept)
        · exact Or.inr ⟨[], _, history, rfl, inserts, by simp⟩
      · rintro (⟨present, unerased⟩ | ⟨since, insertion, before, split, inserts, unerased⟩)
        · obtain ⟨kept, older⟩ := List.forall_mem_cons.mp unerased
          exact Or.inl ⟨Or.inl ⟨present, older⟩, kept⟩
        · cases since with
          | nil =>
              cases split
              exact Or.inr inserts
          | cons newest since =>
              cases split
              obtain ⟨kept, older⟩ := List.forall_mem_cons.mp unerased
              exact Or.inl ⟨Or.inr ⟨since, insertion, before, rfl, inserts, older⟩, kept⟩

/-- A loaded run took its callback from the table of its lookup. -/
theorem exists_entry_of_loaded
    (run : Run (step program) (initial callbackMap conectado) history s) {m : MsgId}
    (loaded : Loaded m callback s) :
    ∃ between lookup before, history = between ++ lookup :: before ∧ LooksUp m lookup ∧
      lookup.source.callbackMap (program.chave m) = some callback := by
  induction run with
  | refl =>
      obtain ⟨_, _, position⟩ := loaded
      simp [initial] at position
  | @tail history source target label run executed ih =>
      have older : Loaded m callback source →
          ∃ between lookup before, (⟨source, label, target⟩ : Event State Label) :: history =
            between ++ lookup :: before ∧ LooksUp m lookup ∧
              lookup.source.callbackMap (program.chave m) = some callback := by
        intro before
        obtain ⟨between, lookup, earlier, rfl, looks, present⟩ := ih before
        exact ⟨_ :: between, lookup, earlier, rfl, looks, present⟩
      rcases delivery_cases executed m with ⟨same, _⟩ | ⟨_, _, moved⟩ | ⟨ret, rfl, moved⟩
      · rw [Loaded, same] at loaded
        exact older loaded
      · rw [Loaded, moved] at loaded
        simp at loaded
      · obtain ⟨holds, nonNull, position⟩ := loaded
        rw [moved] at holds position
        cases pc : (source.delivery m).pc with
        | lookup =>
            refine ⟨[], _, history, rfl, ⟨⟨ret, rfl⟩, pc⟩, ?_⟩
            simp only [messageNext, pc] at holds
            cases present : source.callbackMap (program.chave m) with
            | none =>
                rw [present] at holds
                exact absurd holds.symm nonNull
            | some value =>
                rw [present] at holds
                exact congrArg some holds
        | release =>
            simp only [messageNext, pc] at holds
            exact older ⟨holds, nonNull, Or.inl pc⟩
        | call =>
            simp only [messageNext, pc] at position
            split at position <;> simp at position
        | test =>
            simp only [messageNext, pc] at position
            split at position <;> simp at position
        | idle | acquire | inside | freeMessage | free | finished =>
            simp [messageNext, pc] at position

end Entries

/-- Every application callback that `mensagemRecebida` invokes was registered
for the key of the message when the run looked its topic up: it was in the table
from the start and its topic had never been erased, or a subscribe call had
given it for the topic, found the topic free, and no loop had erased the topic
between that insertion and the lookup. -/
theorem callbacks_come_from_registrations (program : Program) (callbackMap : CallbackMap)
    (conectado : Bool) (history : List (Event State Label)) (s : State)
    (run : Run (step program) (initial callbackMap conectado) history s)
    (later earlier : List (Event State Label)) (event : Event State Label)
    (split : history = later ++ event :: earlier) (m : MsgId) (callback : Callback)
    (calls : Calls m callback event) :
    ∃ between lookup before, earlier = between ++ lookup :: before ∧ LooksUp m lookup ∧
      (Inherited program callbackMap (program.chave m) callback before ∨
        InForce program (program.chave m) callback before) := by
  subst split
  obtain ⟨_, pc, holds, nonNull, _⟩ := calls
  obtain ⟨older, _, _⟩ := run.split
  obtain ⟨between, lookup, before, rfl, looks, present⟩ :=
    exists_entry_of_loaded older ⟨holds, nonNull, Or.inr pc⟩
  obtain ⟨toLookup, _, _⟩ := older.split
  exact ⟨between, lookup, before, rfl, looks, (entry_iff_registration toLookup).mp present⟩

/-- One subscription and messages on its topic. -/
def programaDeOrigem : Program where
  op _ := .subscribe (Subscribe.Args.ofPairs [([97], ⟨7⟩)])
  topico _ := [97]

/-- The callbacks are inserted, the request is accepted, and a message arrives
before its completion. -/
def mensagemAdiantada : List Label :=
  [.start 0, .call 0 0, .call 0 0, .call 0 0, .call 0 0, .call 0 0, .arrive 5, .message 5 0,
    .message 5 0, .message 5 0, .message 5 0]

theorem callbacks_come_from_registrations_early :
    ∃ history s later event earlier,
      Run (step programaDeOrigem) (initial (fun _ => none) true) history s ∧
        history = later ++ event :: earlier ∧ Calls 5 ⟨7⟩ event ∧
        ∃ between lookup before, earlier = between ++ lookup :: before ∧ LooksUp 5 lookup ∧
          (Inherited programaDeOrigem (fun _ => none) (programaDeOrigem.chave 5) ⟨7⟩ before ∨
            InForce programaDeOrigem (programaDeOrigem.chave 5) ⟨7⟩ before) := by
  obtain ⟨s, run, -⟩ := exists_run_of_execute (step programaDeOrigem)
    (initial (fun _ => none) true) mensagemAdiantada (fun s => (s.delivery 5).pc) .inside
    (by decide)
  obtain ⟨later, event, earlier, split, found, -⟩ := exists_split_eventsOf
    (step programaDeOrigem) (initial (fun _ => none) true) mensagemAdiantada 10
    (fun event => event.label == .message 5 0 && (event.source.delivery 5).pc == .call &&
      (event.source.delivery 5).callback == ⟨7⟩ && (event.target.delivery 5).pc == .inside)
    (fun _ => true) (by decide)
  simp only [Bool.and_eq_true, beq_iff_eq] at found
  obtain ⟨⟨⟨labelEq, pc⟩, holds⟩, inside⟩ := found
  have calls : Calls 5 ⟨7⟩ event := ⟨⟨0, labelEq⟩, pc, holds, by decide, inside⟩
  exact ⟨_, s, later, event, earlier, run, split, calls,
    callbacks_come_from_registrations _ _ _ _ _ run later earlier event split 5 ⟨7⟩ calls⟩

end PahoClient
