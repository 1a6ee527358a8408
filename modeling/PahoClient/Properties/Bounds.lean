import PahoClient.Client.Vectors

/-!
# Accesses of a subscribe request

Every loop of a request is bounded by the number of topics.  The rollback and
check loops walk sequences of that length; the insertion loop also reads the
callbacks, whose number nobody compares with it.
-/

namespace PahoClient

open PahoClient.Control

section Loops

variable {falha : Nat → Bool} {vetores : Vetores}

/-- The insertion loop leaves the callbacks exactly when it reaches a topic
without one. -/
theorem inserirVetores_foraDosLimites_iff (map : CallbackMap) :
    (Subscribe.inserirVetores falha vetores map).2 = some .foraDosLimites ↔
      vetores.callbacks.length < vetores.topicos.length ∧
        ∀ k, k < vetores.callbacks.length → ¬ Lanca falha vetores k := by
  rcases none_or_first (saidaAoInserir falha vetores) vetores.topicos.length with
    none | ⟨k, saida, inside, stops, before⟩
  · rw [inserirVetores_of_none map none]
    simp only [reduceCtorEq, false_iff]
    rintro ⟨fewer, _⟩
    have missing := none vetores.callbacks.length fewer
    rw [saidaAoInserir_eq_none_iff] at missing
    exact absurd missing.2.1 (Nat.lt_irrefl _)
  · rw [inserirVetores_of_first map inside stops before, Option.some.injEq]
    constructor
    · rintro rfl
      have missing := (saidaAoInserir_eq_foraDosLimites_iff.mp stops).resolve_left (by omega)
      refine ⟨by omega, fun j small => ?_⟩
      exact (saidaAoInserir_eq_none_iff.mp (before j (by omega))).2.2
    · rintro ⟨fewer, quiet⟩
      have reached : ¬ k < vetores.callbacks.length := by
        intro small
        have passes := saidaAoInserir_eq_none_iff.mpr ⟨inside, small, quiet k small⟩
        rw [stops] at passes
        cases passes
      have missing : saidaAoInserir falha vetores k = some .foraDosLimites :=
        saidaAoInserir_eq_foraDosLimites_iff.mpr (Or.inr (Nat.le_of_not_lt reached))
      rw [stops] at missing
      exact Option.some.inj missing

/-- The rollback reads the topics only, and as many of them as there are. -/
theorem reverter_ne_foraDosLimites (falha : Nat → Bool) (vetores : Vetores)
    (map : CallbackMap) :
    (Subscribe.reverter falha vetores map).2 ≠ .error .foraDosLimites := by
  rw [Subscribe.reverter]
  split
  · simp
  · rename_i saida stopped
    intro left
    cases left
    obtain ⟨j, before, _, inside, failed⟩ :=
      exists_error_of_forLoop (congrArg Prod.snd stopped)
    rw [Subscribe.qosRequisitadosDe, List.length_replicate, Nat.zero_add] at inside
    rw [desfazerEm_eq_stopping, stopping, saidaAoDesfazer, if_pos inside] at failed
    split at failed
    · cases failed
    · rename_i ends
      obtain ⟨tipo, rfl⟩ := exists_excecao_of_saidaAoConstruir ends
      cases failed

/-- Only the insertion loop of a request can leave a vector. -/
theorem pedir_foraDosLimites_iff {falhas : (Nat → Bool) × (Nat → Bool)}
    (outros : CallbackMap → CallbackMap) {resposta : Resposta}
    (answered : Subscribe.Respondido vetores resposta) (map : CallbackMap) :
    (Subscribe.pedir falhas outros vetores resposta map).2 = .error .foraDosLimites ↔
      vetores.topicos ≠ [] ∧
        (Subscribe.inserirVetores falhas.1 vetores map).2 = some .foraDosLimites := by
  rw [Subscribe.pedir]
  split
  · rename_i empty
    simp [List.isEmpty_iff.mp empty]
  · rename_i nonempty
    rw [List.isEmpty_iff] at nonempty
    split
    · rename_i saida loop
      simp [loop, nonempty]
    · rename_i loop
      rw [loop]
      have rollback := reverter_ne_foraDosLimites falhas.2 vetores
      cases resposta with
      | rejeitada ret erro => simp [rollback]
      | concluida res =>
          cases res with
          | onFailure data => simp [rollback]
          | onSuccess data =>
              have checked := verificar_eq answered
              cases refused : (codigosDe vetores data).any fun codes =>
                  Subscribe.codigoRecusado codes.1 codes.2 with
              | false => simp [checked, refused]
              | true => simp [checked, refused, rollback]

end Loops

/-- With one returned code for each topic, every access of a request is in range
exactly when the callbacks cover the topics, or an insertion throws before the
loop gets to the first topic without a callback. -/
theorem accesses_in_range_iff (falhas : (Nat → Bool) × (Nat → Bool))
    (outros : CallbackMap → CallbackMap) (vetores : Vetores) (resposta : Resposta)
    (map : CallbackMap) (answered : Subscribe.Respondido vetores resposta) :
    (Subscribe.pedir falhas outros vetores resposta map).2 ≠ .error .foraDosLimites ↔
      vetores.topicos.length ≤ vetores.callbacks.length ∨
        ∃ k, k < vetores.callbacks.length ∧ Lanca falhas.1 vetores k := by
  rw [Ne, pedir_foraDosLimites_iff outros answered, inserirVetores_foraDosLimites_iff]
  constructor
  · intro inRange
    by_cases covered : vetores.topicos.length ≤ vetores.callbacks.length
    · exact Or.inl covered
    · right
      by_contra none
      apply inRange
      constructor
      · intro empty
        simp [empty] at covered
      · exact ⟨by omega, fun k small throws => none ⟨k, small, throws⟩⟩
  · rintro (covered | ⟨k, small, throws⟩) ⟨_, fewer, quiet⟩
    · omega
    · exact quiet k small throws

/-- Two topics with their callbacks; a third callback is not used. -/
def vetoresDeDois : Vetores where
  topicos := [some [97], some [98]]
  callbacks := [⟨1⟩, ⟨2⟩, ⟨3⟩]

theorem accesses_in_range_iff_covered :
    (Subscribe.pedir (fun _ => false, fun _ => false) id vetoresDeDois
      (.concluida (.onSuccess ⟨0, [1, 0], 0⟩)) (fun _ => none)).2 ≠ .error .foraDosLimites :=
  (accesses_in_range_iff (fun _ => false, fun _ => false) id vetoresDeDois
    (.concluida (.onSuccess ⟨0, [1, 0], 0⟩)) (fun _ => none) rfl).mpr (Or.inl (by decide))

/-- A request for one topic without callbacks reads past the end of the empty
vector. -/
theorem accesses_not_always_in_range :
    ¬ ∀ (falhas : (Nat → Bool) × (Nat → Bool)) (outros : CallbackMap → CallbackMap)
      (vetores : Vetores) (resposta : Resposta) (map : CallbackMap),
      Subscribe.Respondido vetores resposta →
        (Subscribe.pedir falhas outros vetores resposta map).2 ≠ .error .foraDosLimites := by
  intro inRange
  exact inRange (fun _ => false, fun _ => false) id ⟨[some [97]], []⟩
    (.concluida (.onSuccess ⟨1, [], 0⟩)) (fun _ => none) rfl rfl

end PahoClient
