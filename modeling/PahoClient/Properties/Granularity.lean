import PahoClient.Client.Turns
import PahoClient.Transition.Simulation

/-!
# A loop over the table is one statement

A loop runs inside the exclusive section of the lock, so no other thread sees the
table between two of its turns.  The system that interleaves the turns is seen as
the one in which every loop is a single step.
-/

namespace PahoClient

open PahoClient.Control
open PahoClient.Sync
open PahoClient.Transition

/-- The coarse state that a state between two turns belongs to: a loop under way
has not happened yet. -/
structure Acompanha (program : Program) (x : Voltas) (s : State) : Prop where
  inv : Inv program s
  sections : Sections s
  state : x.state = s.withMap x.state.callbackMap
  fora : ∀ agent, contagemDe program s agent = none → x.indice agent = 0
  dentro : ∀ agent contagem, contagemDe program s agent = some contagem →
    x.indice agent ≤ contagem.voltas ∧
      x.state.callbackMap = advance contagem.volta 0 (x.indice agent) s.callbackMap
  quieto : (∀ agent, contagemDe program s agent = none) → x.state.callbackMap = s.callbackMap

section Loops

variable {program : Program} {s t : State} {label : Label} {agent : Agent} {contagem : Contagem}

/-! ## Who is in a loop -/

/-- A thread in a loop is in an exclusive section of the table. -/
theorem writes_of_contagem (loops : contagemDe program s agent = some contagem) :
    s.writesMap agent = true := by
  cases agent with
  | call c =>
      simp only [contagemDe] at loops
      split at loops
      · rename_i laco pc
        rw [State.writesMap, pc]
        rfl
      · cases loops
  | handler c =>
      simp only [contagemDe] at loops
      split at loops
      · rename_i res running
        rw [State.writesMap, running]
        rfl
      · cases loops
  | message m => cases loops

/-- Only one thread is in an exclusive section, and so in a loop. -/
theorem alone_in_loop (sections : Sections s) {other : Agent}
    (writes : s.writesMap agent = true) (different : other ≠ agent) :
    contagemDe program s other = none := by
  cases loops : contagemDe program s other with
  | none => rfl
  | some contagem =>
      exact absurd (sections.guarded.unique (writes_of_contagem loops) writes) different

theorem emLaco_eq_some_iff :
    emLaco program s label = some (agent, contagem) ↔
      label.agente = some agent ∧ contagemDe program s agent = some contagem := by
  simp only [emLaco, Option.bind_eq_some_iff, Option.map_eq_some_iff, Prod.mk.injEq]
  constructor
  · rintro ⟨_, ofLabel, _, loops, rfl, rfl⟩
    exact ⟨ofLabel, loops⟩
  · rintro ⟨ofLabel, loops⟩
    exact ⟨agent, ofLabel, contagem, loops, rfl, rfl⟩

theorem contagemDe_of_emLaco_none (outside : emLaco program s label = none)
    (ofLabel : label.agente = some agent) : contagemDe program s agent = none := by
  simpa [emLaco, ofLabel] using outside

/-- The steps of the others leave a thread in its loop. -/
theorem contagemDe_of_other (inv : Inv program s) (executed : step program s label = some t)
    (loops : contagemDe program s agent = some contagem) (other : label.agente ≠ some agent) :
    contagemDe program t agent = some contagem := by
  cases agent with
  | call c =>
      rcases pc_cases executed c with same | ⟨_, idle, _⟩ | ⟨ret, rfl, _⟩
      · simpa only [contagemDe, same] using loops
      · simp [contagemDe, idle] at loops
      · exact absurd rfl other
  | handler c =>
      rcases request_cases executed c with same | ⟨ret, _, pc, _⟩ | ⟨res, _, pending, _⟩ |
        ⟨res, _, ready, _⟩ | ⟨res, pc, rfl, _⟩
      · simpa only [contagemDe, same] using loops
      · simp [contagemDe, inv.unissued_of_command pc] at loops
      · simp [contagemDe, pending] at loops
      · simp [contagemDe, ready] at loops
      · exact absurd rfl other
  | message m => cases loops

/-! ## What the loops do -/

/-- Outside the loops the table stays as it is. -/
theorem callbackMap_of_outside (executed : step program s label = some t)
    (outside : emLaco program s label = none) : t.callbackMap = s.callbackMap := by
  cases step_effect executed with
  | start | wake | complete | deliver | arrive | network => rfl
  | @call c _ _ _ effect =>
      have notLoop : contagemDe program s (.call c) = none :=
        contagemDe_of_emLaco_none outside rfl
      apply effect.outside
      intro laco pc
      simp [contagemDe, pc] at notLoop
  | @handler c res pc _ running effect =>
      have notLoop : contagemDe program s (.handler c) = none :=
        contagemDe_of_emLaco_none outside rfl
      rw [effect.table, if_neg]
      rintro rfl
      simp [contagemDe, running] at notLoop
  | message messageStep => exact (mensagemRecebida_frame messageStep).callbackMap

/-- The step that leaves a loop has the effect of all its turns, and its thread
stays in the exclusive section. -/
theorem step_of_loop (executed : step program s label = some t)
    (inside : emLaco program s label = some (agent, contagem)) :
    t.callbackMap = advance contagem.volta 0 contagem.voltas s.callbackMap ∧
      t.writesMap agent = true ∧ contagemDe program t agent = none := by
  obtain ⟨ofLabel, loops⟩ := emLaco_eq_some_iff.mp inside
  cases step_effect executed with
  | start | wake | complete | deliver | arrive | network => cases ofLabel
  | @call c ret _ enabled effect =>
      cases ofLabel
      simp only [contagemDe] at loops
      split at loops
      case h_2 => cases loops
      case h_1 laco pc =>
          cases loops
          have next : t.pc c = .release laco := by
            rw [effect.pc, Function.update_self]
            cases op : program.op c with
            | subscribe args | unsubscribe topicos => simp [callNext, pc]
            | conectar | desconectar =>
                -- A connect or disconnect call has no loop.
                rw [op] at enabled
                simp [despachar, Connect.despachar, Disconnect.despachar, Contexto.esperar,
                  pc] at enabled
          refine ⟨?_, ?_, ?_⟩
          · rw [effect.loop laco pc, advance_callContagem]
          · rw [State.writesMap, next]
            rfl
          · simp [contagemDe, next]
  | @handler c res pc _ running effect =>
      cases ofLabel
      have atLoop : pc = .loop := by
        simp only [contagemDe, running] at loops
        cases pc with
        | loop => rfl
        | _ => cases loops
      subst pc
      have next : t.request c = .running res .release := by
        rw [effect.request, Function.update_self]
        rfl
      simp only [contagemDe, running, Option.some.injEq] at loops
      subst contagem
      refine ⟨?_, ?_, ?_⟩
      · rw [effect.table, if_pos rfl, advance_handlerContagem]
      · rw [State.writesMap, next]
        rfl
      · simp [contagemDe, next]
  | message =>
      cases ofLabel
      cases loops

end Loops

/-! ## The simulation -/

section Simulation

variable {program : Program} {x y : Voltas} {s : State} {label : Label}

theorem contagemDe_withMap (s : State) (map : CallbackMap) (agent : Agent) :
    contagemDe program (s.withMap map) agent = contagemDe program s agent := by
  cases agent <;> rfl

theorem emLaco_withMap (s : State) (map : CallbackMap) (label : Label) :
    emLaco program (s.withMap map) label = emLaco program s label := by
  cases label <;> rfl

/-- A message is in its lookup only while no thread is in a loop. -/
theorem Acompanha.same_of_lookup (follows : Acompanha program x s) {m : MsgId}
    (reads : (s.delivery m).pc.readsMap = true) : x.state.callbackMap = s.callbackMap := by
  apply follows.quieto
  intro agent
  cases loops : contagemDe program s agent with
  | none => rfl
  | some contagem =>
      have apart : s.readsMap (.message m) = false :=
        follows.sections.guarded.apart follows.sections.exclusive (writes_of_contagem loops)
      rw [State.readsMap, reads] at apart
      cases apart

/-- One more turn of a loop. -/
theorem Acompanha.turn (follows : Acompanha program x s) {agent : Agent} {contagem : Contagem}
    (loops : contagemDe program s agent = some contagem)
    (more : x.indice agent < contagem.voltas) :
    Acompanha program
      { state := x.state.withMap (contagem.volta (x.indice agent) x.state.callbackMap)
        indice := Function.update x.indice agent (x.indice agent + 1) } s where
  inv := follows.inv
  sections := follows.sections
  state := by
    rw [follows.state]
    rfl
  fora other outside := by
    have different : other ≠ agent := by
      rintro rfl
      rw [loops] at outside
      cases outside
    dsimp only
    rw [Function.update_of_ne different]
    exact follows.fora other outside
  dentro other otherContagem otherLoops := by
    by_cases same : other = agent
    · subst other
      rw [loops] at otherLoops
      cases otherLoops
      dsimp only
      rw [Function.update_self, advance_succ, Nat.zero_add, ← (follows.dentro _ _ loops).2]
      exact ⟨more, rfl⟩
    · rw [alone_in_loop follows.sections (writes_of_contagem loops) same] at otherLoops
      cases otherLoops
  quieto none := by
    rw [none agent] at loops
    cases loops

/-- The step that leaves a loop. -/
theorem Acompanha.exit (follows : Acompanha program x s) {agent : Agent} {contagem : Contagem}
    {t u : State} (inside : emLaco program s label = some (agent, contagem))
    (done : ¬ x.indice agent < contagem.voltas)
    (executed : step program s label = some u)
    (same : ∀ map, t.withMap map = u.withMap map) :
    Acompanha program
      { state := t.withMap x.state.callbackMap, indice := Function.update x.indice agent 0 } u := by
  have loops := (emLaco_eq_some_iff.mp inside).2
  obtain ⟨le, partly⟩ := follows.dentro agent contagem loops
  obtain ⟨whole, writes, left⟩ := step_of_loop executed inside
  have complete : x.state.callbackMap = u.callbackMap := by
    rw [partly, whole, Nat.le_antisymm le (Nat.le_of_not_lt done)]
  have sections := follows.sections.step follows.inv executed
  have nobody : ∀ other, contagemDe program u other = none := by
    intro other
    by_cases own : other = agent
    · rw [own]
      exact left
    · exact alone_in_loop sections writes own
  constructor
  · exact follows.inv.step executed
  · exact sections
  · exact same _
  · intro other _
    dsimp only
    by_cases own : other = agent
    · rw [own, Function.update_self]
    · rw [Function.update_of_ne own]
      exact follows.fora other
        (alone_in_loop follows.sections (writes_of_contagem loops) own)
  · intro other otherContagem otherLoops
    rw [nobody other] at otherLoops
    cases otherLoops
  · exact fun _ => complete

/-- A step outside the loops. -/
theorem Acompanha.outside (follows : Acompanha program x s) {t u : State}
    (outside : emLaco program s label = none) (table : t.callbackMap = x.state.callbackMap)
    (executed : step program s label = some u)
    (same : ∀ map, t.withMap map = u.withMap map) :
    Acompanha program { x with state := t } u := by
  have stays : ∀ {agent contagem}, contagemDe program s agent = some contagem →
      contagemDe program u agent = some contagem := by
    intro agent contagem loops
    apply contagemDe_of_other follows.inv executed loops
    intro ofLabel
    rw [contagemDe_of_emLaco_none outside ofLabel] at loops
    cases loops
  have sections := follows.sections.step follows.inv executed
  have unchanged := callbackMap_of_outside executed outside
  constructor
  · exact follows.inv.step executed
  · exact sections
  · exact same t.callbackMap
  · intro agent none
    apply follows.fora
    cases loops : contagemDe program s agent with
    | none => rfl
    | some contagem =>
        rw [stays loops] at none
        cases none
  · intro agent contagem loops
    rw [table, unchanged]
    cases before : contagemDe program s agent with
    | some earlier =>
        rw [stays before] at loops
        cases loops
        exact follows.dentro agent _ before
    | none =>
        -- The thread has just entered its loop, so no other thread was in one.
        have start := follows.fora agent before
        have nobody : ∀ other, contagemDe program s other = none := by
          intro other
          cases otherLoops : contagemDe program s other with
          | none => rfl
          | some otherContagem =>
              by_cases own : other = agent
              · rw [own, before] at otherLoops
                cases otherLoops
              · have impossible : contagemDe program u other = none :=
                  alone_in_loop sections (writes_of_contagem loops) own
                rw [stays otherLoops] at impossible
                cases impossible
        rw [start]
        exact ⟨Nat.zero_le _, follows.quieto nobody⟩
  · intro none
    rw [table, unchanged]
    apply follows.quieto
    intro agent
    cases loops : contagemDe program s agent with
    | none => rfl
    | some contagem =>
        have impossible := none agent
        rw [stays loops] at impossible
        cases impossible

theorem volta_simulates :
    Simulates (voltaStep program) (step program) (voltaView program) (Acompanha program) where
  silent {x y s label} follows executed hidden := by
    simp only [voltaView, voltaStep] at hidden executed
    split at hidden
    · cases hidden
    · rename_i agent contagem inside
      rw [inside] at executed
      dsimp only at executed
      split at hidden
      · rename_i more
        rw [if_pos more] at executed
        cases executed
        rw [follows.state, emLaco_withMap] at inside
        exact follows.turn (emLaco_eq_some_iff.mp inside).2 more
      · cases hidden
  visible {x y s label seen} follows executed shown := by
    have same : ∀ m ret, label = .message m ret → (s.delivery m).pc = .lookup →
        x.state.callbackMap = s.callbackMap := by
      intro m ret _ lookup
      apply follows.same_of_lookup (m := m)
      rw [lookup]
      rfl
    simp only [voltaView, voltaStep] at shown executed
    split at shown
    · rename_i outside
      cases shown
      rw [outside] at executed
      dsimp only at executed
      obtain ⟨t, stepped, rfl⟩ := Option.map_eq_some_iff.mp executed
      have table := callbackMap_of_outside stepped outside
      rw [follows.state] at stepped
      rw [follows.state, emLaco_withMap] at outside
      obtain ⟨u, coarse, agrees⟩ := exists_step_of_withMap stepped same
      exact ⟨u, coarse, follows.outside outside table coarse agrees⟩
    · rename_i agent contagem inside
      rw [inside] at executed
      dsimp only at executed
      split at shown
      · cases shown
      · rename_i done
        cases shown
        rw [if_neg done] at executed
        obtain ⟨t, stepped, rfl⟩ := Option.map_eq_some_iff.mp executed
        rw [follows.state] at stepped
        rw [follows.state, emLaco_withMap] at inside
        obtain ⟨u, coarse, agrees⟩ := exists_step_of_withMap stepped same
        exact ⟨u, coarse, follows.exit inside done coarse agrees⟩

end Simulation

theorem acompanha_initial (program : Program) (callbackMap : CallbackMap) (conectado : Bool) :
    Acompanha program (Voltas.initial callbackMap conectado) (initial callbackMap conectado) where
  inv := inv_initial program callbackMap conectado
  sections := sections_initial callbackMap conectado
  state := rfl
  fora _ _ := rfl
  dentro agent contagem loops := by
    cases agent <;> cases loops
  quieto _ := rfl

/-- A run with interleaved turns together with the coarse run that it is seen
as. -/
structure VistaComo (program : Program) (history : List (Event Voltas Label)) (x : Voltas)
    (coarse : List (Event State Label)) (s : State) : Prop where
  labels : coarse.map Event.label = seenOf (voltaView program) history
  state : x.state = s.withMap x.state.callbackMap
  quieto : (∀ agent, contagemDe program x.state agent = none) → x.state = s
  leitura : ∀ m, (x.state.delivery m).pc.readsMap = true → x.state = s
  dentro : ∀ agent contagem, contagemDe program x.state agent = some contagem →
    x.indice agent ≤ contagem.voltas ∧
      x.state.callbackMap = advance contagem.volta 0 (x.indice agent) s.callbackMap

/-- However the turns of the loops are interleaved with the other threads, the run
is a run in which each loop is one step: the two states agree on everything but
the table, on the table as well while no thread is in a loop or a message is in its
lookup, and otherwise by the turns of the one loop that is under way. -/
theorem turns_refine_loops (program : Program) (callbackMap : CallbackMap) (conectado : Bool)
    {history : List (Event Voltas Label)} {x : Voltas}
    (run : Run (voltaStep program) (Voltas.initial callbackMap conectado) history x) :
    ∃ coarse s, Run (step program) (initial callbackMap conectado) coarse s ∧
      VistaComo program history x coarse s := by
  obtain ⟨coarse, s, coarseRun, follows, labels⟩ :=
    volta_simulates.run run (acompanha_initial program callbackMap conectado)
  have whole : x.state.callbackMap = s.callbackMap → x.state = s := by
    intro same
    rw [follows.state, same]
    rfl
  refine ⟨coarse, s, coarseRun, labels, follows.state, ?_, ?_, ?_⟩
  · intro nobody
    apply whole
    apply follows.quieto
    intro agent
    rw [← contagemDe_withMap s x.state.callbackMap, ← follows.state]
    exact nobody agent
  · intro m reads
    apply whole
    rw [follows.state] at reads
    exact follows.same_of_lookup reads
  · intro agent contagem loops
    rw [follows.state, contagemDe_withMap] at loops
    exact follows.dentro agent contagem loops

/-- A subscribe call on two topics. -/
def programaDeVoltas : Program where
  op _ := .subscribe (.ofPairs [([97], ⟨1⟩), ([98], ⟨2⟩)])
  topico _ := [97]

/-- A message arrives after the first turn of the insertion loop. -/
def mensagemEntreVoltas : List Label :=
  [.start 0, .call 0 0, .call 0 0, .call 0 0, .arrive 0]

theorem turns_refine_loops_between :
    ∃ history x, Run (voltaStep programaDeVoltas) (Voltas.initial (fun _ => none) true) history x ∧
      x.indice (.call 0) = 1 ∧ x.state.callbackMap [97] = some ⟨1⟩ ∧
      x.state.callbackMap [98] = none ∧
      ∃ coarse s, Run (step programaDeVoltas) (initial (fun _ => none) true) coarse s ∧
        VistaComo programaDeVoltas history x coarse s := by
  obtain ⟨x, run, view⟩ := exists_run_of_execute (voltaStep programaDeVoltas)
    (Voltas.initial (fun _ => none) true) mensagemEntreVoltas
    (fun x => (x.indice (.call 0), x.state.callbackMap [97], x.state.callbackMap [98]))
    (1, some ⟨1⟩, none) (by decide)
  simp only [Prod.mk.injEq] at view
  exact ⟨_, x, run, view.1, view.2.1, view.2.2, turns_refine_loops _ _ _ run⟩

end PahoClient
