/-!
# Loops over a text

A scanner goes through a text in rounds. Main statement: `Loop.Keeps.completes`. If each round leads where it is meant
to and leaves less to scan, then nothing goes wrong in any round, and the loop ends with the result that is meant.
-/

namespace Phrasebook

/-- What a round of a loop comes to: a state to go on with, or the result of the loop. -/
inductive Round (σ ρ : Type) where
  | next (state : σ)
  | done (result : ρ)

/-- A loop over a text: what a round comes to, if nothing goes wrong in it, and how many bytes a state has yet to
scan. -/
structure Loop (σ ρ : Type) where
  round : σ → Option (Round σ ρ)
  left : σ → Nat

namespace Loop

variable {σ ρ : Type}

/-- The result of the loop from a state on. There is none if something goes wrong in a round, or if a round goes on
without scanning anything. -/
def run (loop : Loop σ ρ) (state : σ) : Option ρ :=
  match loop.round state with
  | some (.done result) => some result
  | some (.next next) => if loop.left next < loop.left state then loop.run next else none
  | none => none
termination_by loop.left state

/-- The states that the loop comes to from a state on. -/
inductive Reaches (loop : Loop σ ρ) (start : σ) : σ → Prop
  | start : loop.Reaches start start
  | round {state next : σ} (hreaches : loop.Reaches start state) (hround : loop.round state = some (.next next)) :
      loop.Reaches start next

/-- Nothing goes wrong in any round that the loop comes to, and each ends the loop or leaves less to scan. -/
def Steady (loop : Loop σ ρ) (start : σ) : Prop :=
  ∀ state, loop.Reaches start state →
    (∃ result, loop.round state = some (.done result)) ∨
      ∃ next, loop.round state = some (.next next) ∧ loop.left next < loop.left state

/-- The loop ends with a result, and nothing goes wrong in it. -/
structure Completes (loop : Loop σ ρ) (start : σ) (result : ρ) : Prop where
  steady : loop.Steady start
  run_eq : loop.run start = some result

/-- A round leads to the result that a state is meant to lead to, or to a state meant to lead to the same result. -/
def Keeps (loop : Loop σ ρ) (Meant : σ → ρ → Prop) : Prop :=
  ∀ state result, Meant state result →
    loop.round state = some (.done result) ∨
      ∃ next, loop.round state = some (.next next) ∧ loop.left next < loop.left state ∧ Meant next result

variable {loop : Loop σ ρ} {start state : σ} {result : ρ} {Meant : σ → ρ → Prop}

/-- A round that is done gives the result. -/
theorem run_of_done (h : loop.round state = some (.done result)) : loop.run state = some result := by
  rw [run, h]

/-- A round that leaves less to scan gives way to the next one. -/
theorem run_of_next {next : σ} (h : loop.round state = some (.next next)) (hlt : loop.left next < loop.left state) :
    loop.run state = loop.run next := by
  rw [run, h]
  exact if_pos hlt

/-- Every state that the loop comes to is meant to lead to the same result. -/
theorem Keeps.meant_of_reaches (hkeeps : loop.Keeps Meant) (hmeant : Meant start result)
    (h : loop.Reaches start state) : Meant state result := by
  induction h with
  | start => exact hmeant
  | round hreaches hround ih =>
    obtain hdone | ⟨next, hnext, -, hmeant'⟩ := hkeeps _ _ ih
    · rw [hround] at hdone
      injection hdone
      contradiction
    · rw [hround] at hnext
      obtain rfl := Round.next.inj (Option.some.inj hnext)
      exact hmeant'

/-- The loop gives the result that its first state is meant to lead to. -/
theorem Keeps.run_eq (hkeeps : loop.Keeps Meant) (hmeant : Meant state result) : loop.run state = some result := by
  -- by what the state has left: a round that goes on leaves less, and means the same
  induction hleft : loop.left state using Nat.strongRecOn generalizing state with
  | ind left ih =>
    obtain hdone | ⟨next, hnext, hlt, hmeant'⟩ := hkeeps state result hmeant
    · exact run_of_done hdone
    · rw [run_of_next hnext hlt]
      exact ih _ (hleft ▸ hlt) hmeant' rfl

/-- A loop whose rounds keep what is meant completes with it. -/
theorem Keeps.completes (hkeeps : loop.Keeps Meant) (hmeant : Meant start result) : loop.Completes start result where
  steady state hreaches := by
    obtain hdone | ⟨next, hnext, hlt, -⟩ := hkeeps state result (hkeeps.meant_of_reaches hmeant hreaches)
    · exact .inl ⟨result, hdone⟩
    · exact .inr ⟨next, hnext, hlt⟩
  run_eq := hkeeps.run_eq hmeant

end Loop
end Phrasebook
