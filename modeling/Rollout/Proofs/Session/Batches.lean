import Rollout.Proofs.Command.Batches
import Rollout.Proofs.Session.Planning

/-!
Planning texts one after the other is planning them one below the other.
-/

namespace Rollout

namespace Planner

variable {State : Type} (planner : Planner) (database : Option (Database State)) (lines : Nat)

theorem planList_shifted (command : Command) (state : State) :
    (planList (command.shifted lines)).settle database state =
      (planList command).settle database state := by
  unfold planList
  rw [show (command.shifted lines).object = command.object from rfl]
  cases command.object.bind ListKind.ofName? with
  | none => rfl
  | some kind => cases kind <;> rfl

/-- Where a command stands is not looked at by what it is planned as. -/
theorem plan_shifted (command : Command) (state : State) :
    (planner.plan (command.shifted lines)).settle database state =
      (planner.plan command).settle database state := by
  unfold plan planWith
  rw [show (command.shifted lines).root = command.root from rfl]
  split
  · rfl
  · rfl
  · rfl
  · exact planList_shifted database lines command state
  · rfl
  · rfl
  · split <;> rfl

end Planner

namespace Session

variable {State : Type} (database : Database State) (world : World)

theorem planCommand_shifted (lines : Nat) (command : Command) (session : Session State) :
    session.planCommand database world (command.shifted lines) =
      session.planCommand database world command := by
  unfold planCommand
  rw [show (command.shifted lines).ref = command.ref from rfl]
  split
  · rfl
  · dsimp only
    rw [Planner.plan_shifted]

theorem planCommands_shifted (lines : Nat) (commands : List Command) (session : Session State) :
    session.planCommands database world (commands.map (·.shifted lines)) =
      session.planCommands database world commands := by
  induction commands generalizing session with
  | nil => rfl
  | cons command rest ih => simp only [List.map_cons, planCommands, planCommand_shifted, ih]

variable {database world}

/-- Commands are planned in the session that those before them have left. -/
theorem planCommands_append {first second : List Command} {session middle last : Session State}
    {one two : Nat}
    (start : session.planCommands database world first = (.ok one, middle))
    (more : middle.planCommands database world second = (.ok two, last)) :
    session.planCommands database world (first ++ second) = (.ok (one + two), last) := by
  induction first generalizing session one with
  | nil =>
      obtain ⟨rfl, rfl⟩ : 0 = one ∧ session = middle := by simpa [planCommands] using start
      rw [List.nil_append, more, Nat.zero_add]
  | cons command rest ih =>
      rw [planCommands] at start
      rw [List.cons_append, planCommands]
      split at start <;> rename_i planned
      · cases start
      · rename_i count next
        obtain ⟨counted, same⟩ := Prod.mk.inj start
        cases others : (next.planCommands database world rest).1 with
        | error error => rw [others] at counted; cases counted
        | ok extra =>
            rw [others] at counted
            obtain rfl := Except.ok.inj counted
            dsimp only
            rw [ih (Prod.ext others same), Nat.add_assoc]
            rfl

/-- A text that has been planned is a sequence of commands, each of which was planned. -/
theorem plan_commands {text : String} {session after : Session State} {count : Nat}
    (planned : session.plan database world text = (.ok count, after)) :
    ∃ commands, Command.parse Grammar.builtin text = .ok commands ∧
      session.planCommands database world commands = (.ok count, after) := by
  unfold plan at planned
  split at planned
  · cases planned
  · rename_i commands read
    dsimp only at planned
    split at planned <;> rename_i ended <;> cases planned
    exact ⟨commands, read, ended⟩

/-- Texts compose: below a text of commands, another one is read on its own, except for the lines
told. Texts that can be planned one after the other can be planned together, to the same effect on
the session, and the counts add up. -/
theorem plan_batches (database : Database State) (world : World) (first second : String)
    (session : Session State) :
    (∀ commands, Command.parse Grammar.builtin first = .ok commands →
      Command.parse Grammar.builtin (first ++ "\n" ++ second) =
        match Command.parse Grammar.builtin second with
        | .ok others =>
            .ok (commands ++ others.map (·.shifted (1 + first.toList.count '\n')))
        | .error error => .error (error.shifted (1 + first.toList.count '\n'))) ∧
    ∀ one middle two last, session.plan database world first = (.ok one, middle) →
      middle.plan database world second = (.ok two, last) →
        session.plan database world (first ++ "\n" ++ second) = (.ok (one + two), last) := by
  constructor
  · intro commands read
    rw [Command.parse_below read]
    cases Command.parse Grammar.builtin second <;> rfl
  · intro one middle two last start more
    obtain ⟨commands, read, early⟩ := plan_commands start
    obtain ⟨others, below, late⟩ := plan_commands more
    rw [← planCommands_shifted database world (1 + first.toList.count '\n')] at late
    have both := Command.parse_below read second
    rw [below] at both
    unfold plan
    rw [both]
    dsimp only [ParseError.shiftRead, Except.map, Except.mapError]
    rw [planCommands_append early late]

/-- A text whose literal runs over a line, with a comment at its end. -/
def selecting : String := "sql \x60select\n1\x60; -- one"

theorem plan_batches_selecting :
    (∃ error, Command.parse Grammar.builtin "list" = .error error ∧
      Command.parse Grammar.builtin (selecting ++ "\n" ++ "list") = .error (error.shifted 2)) ∧
    ∃ middle last,
      listing.plan Database.Journal.database.recorded {} selecting = (.ok 2, middle) ∧
        middle.plan Database.Journal.database.recorded {} "list tables" = (.ok 1, last) ∧
        listing.plan Database.Journal.database.recorded {} (selecting ++ "\n" ++ "list tables") =
          (.ok 3, last) := by
  have composes (second : String) :=
    plan_batches Database.Journal.database.recorded {} selecting second listing
  constructor
  · have parsed : ∃ commands, Command.parse Grammar.builtin selecting = .ok commands := by
      cases read : Command.parse Grammar.builtin selecting with
      | ok commands => exact ⟨commands, rfl⟩
      | error error =>
          have fine : (Command.parse Grammar.builtin selecting).isOk = true := by decide +kernel
          rw [read] at fine
          cases fine
    obtain ⟨commands, read⟩ := parsed
    have both := (composes "list").1 commands read
    have lines : 1 + selecting.toList.count '\n' = 2 := by decide
    rw [lines] at both
    cases failed : Command.parse Grammar.builtin "list" with
    | error error =>
        rw [failed] at both
        exact ⟨error, rfl, both⟩
    | ok others =>
        have fails : (Command.parse Grammar.builtin "list").isOk = false := by decide +kernel
        rw [failed] at fails
        cases fails
  · have early : (listing.plan Database.Journal.database.recorded {} selecting).1 = .ok 2 := by
      decide +kernel
    have late : ((listing.plan Database.Journal.database.recorded {} selecting).2.plan
        Database.Journal.database.recorded {} "list tables").1 = .ok 1 := by
      decide +kernel
    rcases start : listing.plan Database.Journal.database.recorded {} selecting with ⟨one, middle⟩
    rw [start] at early late
    obtain rfl : one = .ok 2 := early
    rcases more : middle.plan Database.Journal.database.recorded {} "list tables" with ⟨two, last⟩
    rw [more] at late
    obtain rfl : two = .ok 1 := late
    exact ⟨middle, last, rfl, more, (composes "list tables").2 2 middle 1 last start more⟩

end Session

end Rollout
