import PahoClient.Properties.Window

/-!
# The table after a call that runs alone

A subscribe call that succeeds adds its topics to the table and never replaces
an entry.  An unsubscribe call erases its topics as soon as the request is
accepted, and nothing puts them back when the request fails.
-/

namespace PahoClient

open PahoClient.Transition
open PahoClient.Store

/-- The vectors pair the topic with the callback at some place. -/
def Offers (args : Subscribe.Args) (topico : StdString) (callback : Callback) : Prop :=
  ∃ i : Nat, args.topicos[i]? = some topico ∧ args.callbacks[i]? = some callback

/-- Afterwards every listed topic has a callback that the call gave for it, and
the other topics are as before. -/
structure Installs (args : Subscribe.Args) (antes depois : CallbackMap) : Prop where
  listed : ∀ topico ∈ args.topicos, ∃ callback,
    depois topico = some callback ∧ Offers args topico callback
  others : ∀ topico, topico ∉ args.topicos → depois topico = antes topico

/-- No other call is in progress at any event. -/
def Alone (c : CallId) (history : List (Event State Label)) : Prop :=
  ∀ event ∈ history, ∀ d, d ≠ c → (event.source.pc d).inProgress = false

/-! ## The insertion loop -/

section Insertion

variable {args : Subscribe.Args} {antes : CallbackMap} {topico : StdString}

theorem inserir_of_not_mem (unlisted : topico ∉ args.topicos) :
    Subscribe.inserir args antes topico = antes topico := by
  rw [Subscribe.inserir, Table.insertAll_apply,
    (lookup_zip_eq_none_iff args.covered).mpr unlisted, Option.or_none]

/-- A listed topic without an entry gets a callback that was given for it. -/
theorem inserir_of_absent (listed : topico ∈ args.topicos) (absent : antes topico = none) :
    ∃ callback, Subscribe.inserir args antes topico = some callback ∧
      Offers args topico callback := by
  cases found : Subscribe.inserir args antes topico with
  | none =>
      rw [Subscribe.inserir, Table.insertAll_of_absent _ absent] at found
      exact absurd listed ((lookup_zip_eq_none_iff args.covered).mp found)
  | some callback =>
      rw [Subscribe.inserir, Table.insertAll_of_absent _ absent] at found
      exact ⟨callback, rfl, exists_getElem_of_lookup_zip found⟩

theorem inserir_of_present {callback : Callback} (present : antes topico = some callback) :
    Subscribe.inserir args antes topico = some callback :=
  Table.insertAll_of_present _ present

/-- The insertion loop installs the callbacks unless it finds another one in
place. -/
theorem inserir_installs_iff (args : Subscribe.Args) (antes : CallbackMap) :
    Installs args antes (Subscribe.inserir args antes) ↔
      ∀ topico ∈ args.topicos, ∀ callback, antes topico = some callback →
        Offers args topico callback := by
  constructor
  · intro installs topico listed callback present
    obtain ⟨stored, found, offers⟩ := installs.listed topico listed
    rw [inserir_of_present present] at found
    cases found
    exact offers
  · intro compatible
    constructor
    · intro topico listed
      cases before : antes topico with
      | none => exact inserir_of_absent listed before
      | some callback =>
          exact ⟨callback, inserir_of_present before, compatible topico listed callback before⟩
    · intro topico unlisted
      exact inserir_of_not_mem unlisted

end Insertion

/-! ## Whole calls -/

section Calls

variable {program : Program} {start s : State} {history : List (Event State Label)} {c : CallId}

theorem author_of_alone_call (run : Run (step program) start history s)
    (inv : Inv program start) (alone : Alone c history) (topico : StdString) (d : CallId)
    (update : Edit StdString Callback) (member : (d, update) ∈ updates program history)
    (named : topico ∈ update.keys) : d = c :=
  author_of_alone run inv (fun event member d other _ => alone event member d other) member named

/-- A subscribe call that returns `true` leaves its insertions. -/
theorem callbackMap_of_subscribed (run : Run (step program) start history s)
    (inv : Inv program start) {args : Subscribe.Args} (op : program.op c = .subscribe args)
    (idle : start.pc c = .idle) (returned : s.pc c = .returned true)
    (alone : Alone c history) :
    s.callbackMap = Subscribe.inserir args start.callbackMap := by
  have reached : Inv program s := inv.after_run run
  have window := inWindow_of_returned_true reached op (entered_of_run run inv idle) returned
  funext topico
  rw [callbackMap_of_alone run inv idle (author_of_alone_call run inv alone topico),
    lacosAt_of_inWindow reached op window, op]
  rfl

/-- An unsubscribe call that returns `false` leaves its erasures, unless the
library rejected the request. -/
theorem callbackMap_of_failed_unsubscribe (run : Run (step program) start history s)
    (inv : Inv program start) {topicos : List StdString}
    (op : program.op c = .unsubscribe topicos) (idle : start.pc c = .idle)
    (returned : s.pc c = .returned false) (alone : Alone c history) :
    (∃ ret, s.request c = .rejected ret) ∧ s.callbackMap = start.callbackMap ∨
      (∃ res, s.request c = .done res) ∧
        s.callbackMap = Unsubscribe.apagar topicos start.callbackMap := by
  have table : s.callbackMap = Log.replay start.callbackMap
      (loopUpdates (program.op c) c (lacosAt (program.op c) (s.pc c) (s.request c))) := by
    funext topico
    exact callbackMap_of_alone run inv idle (author_of_alone_call run inv alone topico)
  have progress := (inv.after_run run).progress c
  have enters := entered_of_run run inv idle
  rw [op, returned] at progress enters table
  rcases progress with unissued | ⟨ret, rejected, _⟩ | ⟨res, done, _⟩
  · exact absurd unissued enters
  · rw [rejected] at table
    exact Or.inl ⟨⟨ret, rejected⟩, table⟩
  · rw [done] at table
    exact Or.inr ⟨⟨res, done⟩, table⟩

/-- No other call is in progress when all of them are idle or returned and none
is started. -/
theorem alone_of_run (run : Run (step program) start history s)
    (others : ∀ d, d ≠ c → (start.pc d).inProgress = false)
    (never : ∀ event ∈ history, ∀ d, d ≠ c → event.label ≠ .start d) : Alone c history := by
  intro event member d other
  obtain ⟨_, sources⟩ := resting_of_run run (others d other) fun event member =>
    never event member d other
  rw [sources event member]
  exact others d other

end Calls

/-- A subscribe call that succeeds while no other call runs installs its
callbacks exactly when no listed topic had another callback before. -/
theorem successful_subscribe_installs_iff (program : Program) (callbackMap : CallbackMap)
    (conectado : Bool) {earlier history : List (Event State Label)} {before after : State}
    {c : CallId} {args : Subscribe.Args}
    (reached : Run (step program) (initial callbackMap conectado) earlier before)
    (run : Run (step program) before history after) (op : program.op c = .subscribe args)
    (idle : before.pc c = .idle) (returned : after.pc c = .returned true)
    (alone : Alone c history) :
    Installs args before.callbackMap after.callbackMap ↔
      ∀ topico ∈ args.topicos, ∀ callback, before.callbackMap topico = some callback →
        Offers args topico callback := by
  rw [callbackMap_of_subscribed run (Inv.of_run reached) op idle returned alone]
  exact inserir_installs_iff args before.callbackMap

/-- Two topics of which the first is registered with the same callback. -/
def pedidoRepetido : Subscribe.Args :=
  .ofPairs [([97], ⟨7⟩), ([98], ⟨2⟩)]

/-- A subscribe call whose first topic is already there. -/
def programaRepetido : Program where
  op _ := .subscribe pedidoRepetido
  topico _ := []

/-- A subscribe call on `n` topics from its start to its return, accepted by the
library with the code 1 for every topic. -/
def inscricaoInteira (c : CallId) (n : Nat) : List Label :=
  [.start c, .call c 0, .call c 0, .call c 0, .call c 0, .call c 0,
    .complete c (.onSuccess ⟨1, List.replicate n 1, 0⟩), .deliver c,
    .handler c, .handler c, .handler c, .handler c, .handler c, .handler c,
    .call c 0, .call c 0, .call c 0]

theorem successful_subscribe_installs_iff_repeated :
    ∃ history after, Run (step programaRepetido) (initial tabelaComUm true) history after ∧
      after.pc 0 = .returned true ∧
        Installs pedidoRepetido tabelaComUm after.callbackMap := by
  obtain ⟨after, run, returned⟩ := exists_run_of_execute (step programaRepetido)
    (initial tabelaComUm true) (inscricaoInteira 0 2) (fun s => s.pc 0) (.returned true)
    (by decide)
  have alone : Alone 0 (eventsOf (step programaRepetido) (initial tabelaComUm true)
      (inscricaoInteira 0 2)).reverse := by
    apply alone_of_run run (fun _ _ => rfl)
    intro event member d other started
    have named := label_mem_of_mem_eventsOf member
    rw [started] at named
    simp [inscricaoInteira, other] at named
  refine ⟨_, after, run, returned,
    (successful_subscribe_installs_iff _ _ _ .refl run rfl rfl returned alone).mpr ?_⟩
  intro topico listed callback present
  simp only [initial, tabelaComUm] at present
  split at present
  · rename_i first
    subst topico
    cases present
    exact ⟨0, rfl, rfl⟩
  · cases present

/-- The same topic subscribed twice, the second time with another callback. -/
def programaTrocado : Program where
  op c := .subscribe (.ofPairs [([97], ⟨c + 1⟩)])
  topico _ := []

/-- The second of two successful subscribe calls on a topic leaves the callback
of the first. -/
theorem successful_subscribe_not_always_installs :
    ¬ ∀ (program : Program) (conectado : Bool) (earlier history : List (Event State Label))
      (before after : State) (c : CallId) (args : Subscribe.Args),
      Run (step program) (initial (fun _ => none) conectado) earlier before →
        Run (step program) before history after → program.op c = .subscribe args →
          args.topicos.length = args.callbacks.length → before.pc c = .idle →
            after.pc c = .returned true → Alone c history →
              Installs args before.callbackMap after.callbackMap := by
  intro installs
  obtain ⟨before, after, reached, found, run, view⟩ := exists_runs_of_execute
    (step programaTrocado) (initial (fun _ => none) true) (inscricaoInteira 0 1)
    (inscricaoInteira 1 1) (fun s => (s.pc 0, s.pc 1)) (.returned true, .idle)
    (fun s => (s.pc 1, s.callbackMap [97])) (.returned true, some ⟨1⟩) (by decide) (by decide)
  simp only [Prod.mk.injEq] at found view
  have startedOnly : ∀ event ∈ (eventsOf (step programaTrocado) (initial (fun _ => none) true)
      (inscricaoInteira 0 1)).reverse, ∀ d, d ≠ 0 → event.label ≠ .start d := by
    intro event member d other started
    have named := label_mem_of_mem_eventsOf member
    rw [started] at named
    simp [inscricaoInteira, other] at named
  have alone : Alone 1 (eventsOf (step programaTrocado) before (inscricaoInteira 1 1)).reverse := by
    apply alone_of_run run
    · intro d other
      by_cases first : d = 0
      · subst d
        rw [found.1]
        rfl
      · have idle : before.pc d = .idle :=
          (resting_of_run reached rfl fun event member => startedOnly event member d first).1
        rw [idle]
        rfl
    · intro event member d other started
      have named := label_mem_of_mem_eventsOf member
      rw [started] at named
      simp [inscricaoInteira, other] at named
  have installed := installs _ _ _ _ _ _ 1 _ reached run rfl rfl found.2 view.1 alone
  obtain ⟨callback, stored, i, topicoAt, callbackAt⟩ :=
    installed.listed [97] List.mem_cons_self
  rw [view.2] at stored
  cases stored
  cases i with
  | zero => simp [Subscribe.Args.ofPairs] at callbackAt
  | succ i => simp [Subscribe.Args.ofPairs] at topicoAt

/-- An unsubscribe call that fails while no other call runs leaves the table as
it was exactly when the library rejected the request or none of the topics was
registered. -/
theorem failed_unsubscribe_restores_iff (program : Program) (callbackMap : CallbackMap)
    (conectado : Bool) {earlier history : List (Event State Label)} {before after : State}
    {c : CallId} {topicos : List StdString}
    (reached : Run (step program) (initial callbackMap conectado) earlier before)
    (run : Run (step program) before history after) (op : program.op c = .unsubscribe topicos)
    (idle : before.pc c = .idle) (returned : after.pc c = .returned false)
    (alone : Alone c history) :
    after.callbackMap = before.callbackMap ↔
      (∃ ret, after.request c = .rejected ret) ∨
        ∀ topico ∈ topicos, before.callbackMap topico = none := by
  rcases callbackMap_of_failed_unsubscribe run (Inv.of_run reached) op idle returned alone with
    ⟨rejected, same⟩ | ⟨⟨res, done⟩, erased⟩
  · simp [rejected, same]
  · rw [erased, Unsubscribe.apagar, Table.eraseAll_eq_self_iff]
    simp [done]

/-- Unsubscribe calls on one registered topic. -/
def programaDeSaida : Program where
  op _ := .unsubscribe [[97]]
  topico _ := []

theorem failed_unsubscribe_restores_iff_rejected :
    ∃ history after, Run (step programaDeSaida) (initial tabelaComUm true) history after ∧
      after.pc 0 = .returned false ∧ after.callbackMap = tabelaComUm := by
  obtain ⟨after, run, view⟩ := exists_run_of_execute (step programaDeSaida)
    (initial tabelaComUm true) [.start 0, .call 0 (-1)] (fun s => (s.pc 0, s.request 0))
    (.returned false, .rejected (-1)) (by decide)
  simp only [Prod.mk.injEq] at view
  have alone : Alone 0 (eventsOf (step programaDeSaida) (initial tabelaComUm true)
      [.start 0, .call 0 (-1)]).reverse := by
    apply alone_of_run run (fun _ _ => rfl)
    intro event member d other started
    have named := label_mem_of_mem_eventsOf member
    rw [started] at named
    simp [other] at named
  have unchanged := (failed_unsubscribe_restores_iff _ _ _ .refl run rfl rfl view.1 alone).mpr
    (Or.inl ⟨-1, view.2⟩)
  exact ⟨_, after, run, view.1, unchanged⟩

/-- An accepted request, the erasures of the caller, and then the report of its
failure. -/
def saidaFalha : List Label :=
  [.start 0, .call 0 0, .call 0 0, .call 0 0, .call 0 0, .complete 0 (.onFailure none),
    .deliver 0, .handler 0, .handler 0, .handler 0, .handler 0, .handler 0, .handler 0,
    .call 0 0, .call 0 0, .call 0 0]

/-- The request is accepted and fails later; the registered topic is gone. -/
theorem failed_unsubscribe_not_always_restores :
    ¬ ∀ (program : Program) (callbackMap : CallbackMap) (conectado : Bool)
      (earlier history : List (Event State Label)) (before after : State) (c : CallId)
      (topicos : List StdString),
      Run (step program) (initial callbackMap conectado) earlier before →
        Run (step program) before history after → program.op c = .unsubscribe topicos →
          before.pc c = .idle → after.pc c = .returned false → Alone c history →
            after.callbackMap = before.callbackMap := by
  intro restores
  obtain ⟨after, run, view⟩ := exists_run_of_execute (step programaDeSaida)
    (initial tabelaComUm true) saidaFalha (fun s => (s.pc 0, s.callbackMap [97]))
    (.returned false, none) (by decide)
  simp only [Prod.mk.injEq] at view
  have alone : Alone 0 (eventsOf (step programaDeSaida) (initial tabelaComUm true)
      saidaFalha).reverse := by
    apply alone_of_run run (fun _ _ => rfl)
    intro event member d other started
    have named := label_mem_of_mem_eventsOf member
    rw [started] at named
    simp [saidaFalha, other] at named
  have same := restores _ _ _ _ _ _ after 0 _ .refl run rfl rfl view.1 alone
  have gone := view.2
  rw [same] at gone
  simp [initial, tabelaComUm] at gone

end PahoClient
