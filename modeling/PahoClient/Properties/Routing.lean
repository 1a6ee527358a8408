import PahoClient.Client.Messages
import PahoClient.Topic.Filter

/-!
# Which callback a message is routed to

`mensagemRecebida` looks the C string of the topic up as a key.  This is compared
with the matching rules for topic filters: the lookup agrees with them for keys
without wildcards, and finds no filter with one.
-/

namespace PahoClient

open PahoClient.Transition

/-- `/`, `+`, `#` and `$`. -/
def mqtt : Topic.Symbols UInt8 where
  separator := 47
  single := 43
  multi := 35
  reserved := 36

/-- The full topic name of a message: the string up to its terminator when
`topico_sz` is 0, and the first `topico_sz` bytes otherwise. -/
def nomeCompleto (topico : List UInt8) (topicoSz : Nat) : StdString :=
  if topicoSz = 0 then StdString.ofCString topico else topico.take topicoSz

/-- A callback is invoked exactly when some key matches the name, and it is
registered under such a key. -/
structure RoutedByMatching (map : CallbackMap) (name : StdString) (invoked : Callback → Prop) :
    Prop where
  complete : (∃ callback, invoked callback) ↔
    ∃ key callback, map key = some callback ∧ mqtt.accepts key name = true
  sound : ∀ callback, invoked callback →
    ∃ key, map key = some callback ∧ mqtt.accepts key name = true

/-- The callback registered under the name itself is invoked, and no other.  For
names and keys without wildcards this is what the matching rules ask for. -/
structure RoutedByName (map : CallbackMap) (name : StdString) (invoked : Callback → Prop) :
    Prop where
  exact : ∀ callback, invoked callback ↔ map name = some callback
  sound : mqtt.Plain name → ∀ callback, invoked callback →
    ∃ key, map key = some callback ∧ mqtt.accepts key name = true
  complete : (∀ key callback, map key = some callback → mqtt.Plain key) →
    ((∃ callback, invoked callback) ↔
      ∃ key callback, map key = some callback ∧ mqtt.accepts key name = true)

theorem RoutedByName.of_exact {map : CallbackMap} {name : StdString} {invoked : Callback → Prop}
    (exact : ∀ callback, invoked callback ↔ map name = some callback) :
    RoutedByName map name invoked where
  exact := exact
  sound plain callback called := by
    refine ⟨name, (exact callback).mp called, ?_⟩
    rw [Topic.Symbols.accepts_of_plain plain]
  complete plain := by
    constructor
    · rintro ⟨callback, called⟩
      have registered := (exact callback).mp called
      refine ⟨name, callback, registered, ?_⟩
      rw [Topic.Symbols.accepts_of_plain (plain name callback registered)]
    · rintro ⟨key, callback, registered, accepted⟩
      have same := (Topic.Symbols.accepts_of_plain (plain key callback registered)).mp accepted
      subst key
      exact ⟨callback, (exact callback).mpr registered⟩

section Runs

variable {program : Program} {s t start : State} {label : Label}
  {history : List (Event State Label)} {m : MsgId} {found : Callback}

/-- What a run of `mensagemRecebida` has done with the callback that it found:
it has called it exactly when it is past the call and the callback is not
`NULL`. -/
def CallsFound (m : MsgId) (found : Callback) (history : List (Event State Label)) (s : State) :
    Prop :=
  ((s.delivery m).callback = found ∧ ((s.delivery m).pc = .release ∨ (s.delivery m).pc = .call) ∧
      ∀ event ∈ history, ∀ callback, ¬ Calls m callback event) ∨
    (s.delivery m).pc.pastCall = true ∧
      ∀ callback, (∃ event ∈ history, Calls m callback event) ↔
        found = callback ∧ callback ≠ Callback.null

/-- The step that leaves the call decides whether the callback is invoked. -/
theorem callsFound_call (executed : step program s label = some t) {ret : Int}
    (labelEq : label = .message m ret) (holds : (s.delivery m).callback = found)
    (pc : (s.delivery m).pc = .call)
    (notBefore : ∀ event ∈ history, ∀ callback, ¬ Calls m callback event) :
    CallsFound m found (⟨s, label, t⟩ :: history) t := by
  subst labelEq
  have moved : t.delivery m = messageNext (program.chave m) s.callbackMap ret (s.delivery m) := by
    rw [(mensagemRecebida_effect executed).delivery, Function.update_self]
  apply Or.inr
  constructor
  · rw [moved]
    simp only [messageNext, pc]
    split <;> rfl
  · intro callback
    constructor
    · rintro ⟨event, member, calls⟩
      rcases List.mem_cons.mp member with rfl | older
      · exact ⟨holds.symm.trans calls.2.2.1, calls.2.2.2.1⟩
      · exact absurd calls (notBefore event older callback)
    · rintro ⟨rfl, nonNull⟩
      exact ⟨_, List.mem_cons_self, calls_of_step executed pc holds nonNull⟩

theorem callsFound_step (follows : CallsFound m found history s)
    (executed : step program s label = some t) :
    CallsFound m found (⟨s, label, t⟩ :: history) t := by
  rcases follows with ⟨holds, position, notBefore⟩ | ⟨past, called⟩
  · rcases delivery_cases executed m with ⟨same, notMessage⟩ | ⟨_, idle, _⟩ | ⟨ret, labelEq, moved⟩
    · apply Or.inl
      rw [same]
      refine ⟨holds, position, List.forall_mem_cons.mpr ⟨?_, notBefore⟩⟩
      rintro callback ⟨⟨ret, labelEq⟩, _⟩
      exact notMessage ret labelEq
    · rw [idle] at position
      simp at position
    · rcases position with pc | pc
      · apply Or.inl
        rw [moved]
        simp only [messageNext, pc]
        refine ⟨holds, Or.inr trivial, List.forall_mem_cons.mpr ⟨?_, notBefore⟩⟩
        rintro callback ⟨_, atCall, _⟩
        rw [pc] at atCall
        cases atCall
      · exact callsFound_call executed labelEq holds pc notBefore
  · refine Or.inr ⟨pastCall_step executed past, ?_⟩
    intro callback
    rw [← called callback]
    constructor
    · rintro ⟨event, member, calls⟩
      rcases List.mem_cons.mp member with rfl | older
      · rw [calls.2.1] at past
        cases past
      · exact ⟨event, older, calls⟩
    · rintro ⟨event, older, calls⟩
      exact ⟨event, List.mem_cons_of_mem _ older, calls⟩

/-- After its lookup a run of `mensagemRecebida` follows what it found. -/
theorem callsFound_of_run (run : Run (step program) start history s)
    (loaded : (start.delivery m).callback = found) (position : (start.delivery m).pc = .release) :
    CallsFound m found history s := by
  induction run with
  | refl => exact Or.inl ⟨loaded, Or.inl position, by simp⟩
  | tail _ executed ih => exact callsFound_step ih executed

/-- A run of `mensagemRecebida` calls nothing before its lookup. -/
theorem not_calls_before_lookup (run : Run (step program) start history s)
    (position : (s.delivery m).pc = .lookup) {event : Event State Label} (member : event ∈ history)
    (callback : Callback) : ¬ Calls m callback event := by
  intro calls
  obtain ⟨later, earlier, rfl⟩ := List.append_of_mem member
  obtain ⟨_, _, after⟩ := run.split
  have past := after.invariant (fun state => (state.delivery m).pc.pastCall = true)
    (pastCall_of_calls calls) fun _ _ _ before executed => pastCall_step executed before
  rw [position] at past
  cases past

/-- A run of `mensagemRecebida` past its call has invoked the callback that its
lookup found, unless that is `NULL`. -/
theorem calls_iff_of_looksUp (run : Run (step program) start history s)
    {lookup : Event State Label} (member : lookup ∈ history) (looks : LooksUp m lookup)
    (past : (s.delivery m).pc.pastCall = true) (callback : Callback) :
    (∃ event ∈ history, Calls m callback event) ↔
      lookup.source.callbackMap (program.chave m) = some callback ∧
        callback ≠ Callback.null := by
  obtain ⟨later, earlier, rfl⟩ := List.append_of_mem member
  obtain ⟨before, executed, after⟩ := run.split
  obtain ⟨⟨ret, labelEq⟩, pc⟩ := looks
  rw [labelEq] at executed
  have moved := (mensagemRecebida_effect executed).delivery
  have next : lookup.target.delivery m = { lookup.source.delivery m with
      pc := .release
      callback := (lookup.source.callbackMap (program.chave m)).getD Callback.null } := by
    rw [moved, Function.update_self]
    simp only [messageNext, pc]
  have followed := callsFound_of_run after (by rw [next]) (by rw [next])
  rcases followed with ⟨_, position, _⟩ | ⟨_, called⟩
  · rcases position with release | call
    · rw [release] at past
      cases past
    · rw [call] at past
      cases past
  · have only : (∃ event ∈ later ++ lookup :: earlier, Calls m callback event) ↔
        ∃ event ∈ later, Calls m callback event := by
      constructor
      · rintro ⟨event, anywhere, calls⟩
        rcases List.mem_append.mp anywhere with inLater | inEarlier
        · exact ⟨event, inLater, calls⟩
        · rcases List.mem_cons.mp inEarlier with rfl | inEarlier
          · exact absurd calls.2.1 (by rw [pc]; simp)
          · exact absurd calls (not_calls_before_lookup before pc inEarlier callback)
      · rintro ⟨event, inLater, calls⟩
        exact ⟨event, List.mem_append_left _ inLater, calls⟩
    rw [only, called callback]
    cases entry : lookup.source.callbackMap (program.chave m) with
    | none =>
        simp only [Option.getD_none]
        constructor
        · rintro ⟨rfl, nonNull⟩
          exact absurd rfl nonNull
        · rintro ⟨impossible, _⟩
          cases impossible
    | some value => simp

end Runs

/-- A message without embedded terminators is routed by its name: the callback
that the table holds under the name at the lookup is the one that is invoked. -/
theorem messages_routed_by_name (program : Program) (callbackMap : CallbackMap)
    (conectado : Bool) {history : List (Event State Label)} {s : State}
    (run : Run (step program) (initial callbackMap conectado) history s) {m : MsgId}
    {topicoSz : Nat} {lookup : Event State Label} (member : lookup ∈ history)
    (looks : LooksUp m lookup) (past : (s.delivery m).pc.pastCall = true)
    (nonNull : ∀ key callback, lookup.source.callbackMap key = some callback →
      callback ≠ Callback.null)
    (terminated : topicoSz = 0) :
    RoutedByName lookup.source.callbackMap (nomeCompleto (program.topico m) topicoSz)
      fun callback => ∃ event ∈ history, Calls m callback event := by
  have name : nomeCompleto (program.topico m) topicoSz = program.chave m := if_pos terminated
  rw [name]
  apply RoutedByName.of_exact
  intro callback
  rw [calls_iff_of_looksUp run member looks past callback]
  constructor
  · exact And.left
  · intro registered
    exact ⟨registered, nonNull _ callback registered⟩

/-- Messages on the topic `a/b`. -/
def programaDeRota : Program where
  op _ := .conectar
  topico _ := [97, 47, 98, 0]

/-- A table with one entry. -/
def tabelaDe (filter : StdString) : CallbackMap :=
  fun key => if key = filter then some ⟨1⟩ else none

/-- A message from its arrival to the test of the returned value, for a callback
that is found. -/
def mensagemEntregue : List Label :=
  [.arrive 0, .message 0 0, .message 0 0, .message 0 0, .message 0 0, .message 0 1]

theorem tabelaDe_nonNull (filter key : StdString) (callback : Callback)
    (entry : tabelaDe filter key = some callback) : callback ≠ Callback.null := by
  unfold tabelaDe at entry
  split at entry
  · cases entry
    decide
  · cases entry

/-- Arriving messages leave the table alone. -/
theorem callbackMap_of_mensagens {program : Program} {start s : State}
    {history : List (Event State Label)} (run : Run (step program) start history s)
    (messages : ∀ event ∈ history, (∃ m, event.label = .arrive m) ∨
      ∃ m ret, event.label = .message m ret) :
    s.callbackMap = start.callbackMap := by
  induction run with
  | refl => rfl
  | tail _ executed ih =>
      obtain ⟨now, before⟩ := List.forall_mem_cons.mp messages
      rw [← ih before]
      rcases now with ⟨m, rfl⟩ | ⟨m, ret, rfl⟩
      · cases step_effect executed
        rfl
      · exact (mensagemRecebida_frame executed).callbackMap

/-- The delivery of the message over a table with one entry, seen at its
lookup. -/
theorem exists_lookup_of_entrega (filter : StdString) (final : MessagePc)
    (executed : (execute (step programaDeRota) (initial (tabelaDe filter) true)
      mensagemEntregue).map (fun s => (s.delivery 0).pc) = some final)
    (found : (eventsOf (step programaDeRota) (initial (tabelaDe filter) true)
      mensagemEntregue).any (fun event => event.label == .message 0 0 &&
        (event.source.delivery 0).pc == .lookup) = true) :
    ∃ history s lookup, Run (step programaDeRota) (initial (tabelaDe filter) true) history s ∧
      (s.delivery 0).pc = final ∧ lookup ∈ history ∧ LooksUp 0 lookup ∧
        lookup.source.callbackMap = tabelaDe filter := by
  obtain ⟨s, run, pc⟩ := exists_run_of_execute _ _ _ _ _ executed
  obtain ⟨lookup, member, test⟩ := exists_mem_eventsOf _ _ _ _ found
  simp only [Bool.and_eq_true, beq_iff_eq] at test
  refine ⟨_, s, lookup, run, pc, member, ⟨⟨0, test.1⟩, test.2⟩, ?_⟩
  obtain ⟨later, earlier, split⟩ := List.append_of_mem member
  rw [split] at run
  obtain ⟨before, _, _⟩ := run.split
  apply callbackMap_of_mensagens before
  intro event older
  have named : event ∈ (eventsOf (step programaDeRota) (initial (tabelaDe filter) true)
      mensagemEntregue).reverse := by
    rw [split]
    exact List.mem_append_right _ (List.mem_cons_of_mem _ older)
  have listed := label_mem_of_mem_eventsOf named
  simp only [mensagemEntregue, List.mem_cons, List.not_mem_nil, or_false] at listed
  rcases listed with labelEq | labelEq | labelEq | labelEq | labelEq | labelEq <;>
    simp [labelEq]

theorem messages_routed_by_name_exact :
    ∃ history s,
      Run (step programaDeRota) (initial (tabelaDe [97, 47, 98]) true) history s ∧
        RoutedByName (tabelaDe [97, 47, 98]) [97, 47, 98]
          fun callback => ∃ event ∈ history, Calls 0 callback event := by
  obtain ⟨history, s, lookup, run, pc, member, looks, table⟩ :=
    exists_lookup_of_entrega [97, 47, 98] .test (by decide) (by decide)
  have routed : RoutedByName _ (nomeCompleto [97, 47, 98, 0] 0) _ :=
    messages_routed_by_name _ _ _ run member looks (by rw [pc]; rfl)
      (by rw [table]; exact tabelaDe_nonNull _) rfl
  rw [table] at routed
  exact ⟨history, s, run, routed⟩

/-- The filter `a/+` is one that a subscription may name. -/
theorem filtro_valido : mqtt.IsFilter [97, 47, 43] := by
  constructor
  · simp
  · have levels : mqtt.levels [97, 47, 43] = [[97], [43]] := by decide
    rw [levels]
    simp [Topic.Symbols.WellFormedLevels, Topic.Symbols.Plain, mqtt]

/-- A message on `a/b` finds no callback under the filter `a/+`. -/
theorem messages_not_always_routed_by_matching :
    ¬ ∀ (program : Program) (callbackMap : CallbackMap) (conectado : Bool)
      (history : List (Event State Label)) (s : State) (m : MsgId) (topicoSz : Nat)
      (lookup : Event State Label),
      Run (step program) (initial callbackMap conectado) history s → lookup ∈ history →
        LooksUp m lookup → (s.delivery m).pc.pastCall = true →
          (∀ key callback, lookup.source.callbackMap key = some callback →
            mqtt.IsFilter key ∧ callback ≠ Callback.null) →
            RoutedByMatching lookup.source.callbackMap
              (nomeCompleto (program.topico m) topicoSz)
              fun callback => ∃ event ∈ history, Calls m callback event := by
  intro routed
  obtain ⟨history, s, lookup, run, pc, member, looks, table⟩ :=
    exists_lookup_of_entrega [97, 47, 43] .freeMessage (by decide) (by decide)
  have past : (s.delivery 0).pc.pastCall = true := by
    rw [pc]
    rfl
  have matching := routed _ _ _ history s 0 0 lookup run member looks past (by
    rw [table]
    intro key callback entry
    refine ⟨?_, tabelaDe_nonNull _ key callback entry⟩
    have only : key = [97, 47, 43] := by
      by_contra other
      simp [tabelaDe, other] at entry
    rw [only]
    exact filtro_valido)
  obtain ⟨callback, called⟩ := matching.complete.mpr
    ⟨[97, 47, 43], ⟨1⟩, by rw [table]; rfl, by decide⟩
  have found := ((calls_iff_of_looksUp run member looks past callback).mp called).1
  rw [table] at found
  have absent : tabelaDe [97, 47, 43] (programaDeRota.chave 0) = none := by decide
  rw [absent] at found
  cases found

end PahoClient
