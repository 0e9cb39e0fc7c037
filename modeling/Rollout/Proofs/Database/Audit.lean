import Rollout.Database.Script

/-!
Calls for the audit. Two databases may differ in how they answer these calls and in nothing else;
two scripts whose rules differ only for these calls are such databases.
-/

namespace Rollout

namespace Database

/-- Calls that are made for the audit alone. -/
def Call.isAudit : Call → Bool
  | currentUser | recordAudit _ => true
  | _ => false

/-- The command that a call enters into the audit. -/
def Call.audited? : Call → Option String
  | recordAudit entry => some entry.command
  | _ => none

/-- The calls that are not made for the audit. -/
def apartFromAudit (calls : List Call) : List Call := calls.filter (!·.isAudit)

variable {First Second : Type}

/-- From states that are alike the two databases answer every call alike, but for those of the
audit; after all calls the states are alike again. One database may refuse to tell the user where
the other one does, so the entries may differ in the user. -/
structure AuditApart (first : Database First) (second : Database Second)
    (alike : First → Second → Prop) : Prop where
  answers {one : First} {other : Second} {call : Call} (same : alike one other)
    (ordinary : call.isAudit = false) : (second.perform call other).1 = (first.perform call one).1
  keeps {one : First} {other : Second} {call : Call} (same : alike one other)
    (ordinary : call.isAudit = false) :
    alike (first.perform call one).2 (second.perform call other).2
  asks {one : First} {other : Second} (same : alike one other) :
    alike (first.perform .currentUser one).2 (second.perform .currentUser other).2
  notes {one : First} {other : Second} (same : alike one other) (entry : AuditEntry)
    (user : Option String) :
    alike (first.perform (.recordAudit entry) one).2
      (second.perform (.recordAudit { entry with databaseUser := user }) other).2

/-- The states are alike, and what has been written down since is the same apart from the audit. -/
def AlikeSince (alike : First → Second → Prop) (before past : List Call)
    (one : First × List Call) (other : Second × List Call) : Prop :=
  alike one.1 other.1 ∧ ∃ made more, one.2 = before ++ made ∧ other.2 = past ++ more ∧
    apartFromAudit more = apartFromAudit made

theorem AlikeSince.next {alike : First → Second → Prop} {before past : List Call}
    {one : First × List Call} {other : Second × List Call} {call twin : Call} {after : First}
    {later : Second} (since : AlikeSince alike before past one other) (same : alike after later)
    (shown : apartFromAudit [twin] = apartFromAudit [call]) :
    AlikeSince alike before past (after, one.2 ++ [call]) (later, other.2 ++ [twin]) := by
  obtain ⟨-, made, more, record, register, apart⟩ := since
  refine ⟨same, made ++ [call], more ++ [twin], ?_, ?_, ?_⟩
  · rw [record, List.append_assoc]
  · rw [register, List.append_assoc]
  · unfold apartFromAudit at shown apart ⊢
    rw [List.filter_append, List.filter_append, apart, shown]

/-- Writing all calls down makes no difference. -/
theorem AuditApart.recorded {first : Database First} {second : Database Second}
    {alike : First → Second → Prop} (apart : AuditApart first second alike)
    (before past : List Call) :
    AuditApart first.recorded second.recorded (AlikeSince alike before past) where
  answers since ordinary := apart.answers since.1 ordinary
  keeps since ordinary := since.next (apart.keeps since.1 ordinary) rfl
  asks since := since.next (apart.asks since.1) rfl
  notes since entry user := since.next (apart.notes since.1 entry user) rfl

end Database

namespace Script

open Database (Call)

/-- Is the rule about calls that are made for the audit alone? -/
def Rule.isAudit (rule : Rule) : Bool := rule.call == "current_user" || rule.call == "record_audit"

/-- The rules about other calls, with their counts. -/
def otherRules (rules : List Count) : List Count := rules.filter (!·.1.isAudit)

/-- States that differ in the user, in the rules about the audit and in what was answered so far. -/
def AlikeButAudit (one other : State) : Prop :=
  ∃ user rules calls, other = { one with user := user, rules := rules, calls := calls } ∧
    otherRules rules = otherRules one.rules

theorem Rule.isAudit_of_fits {rule : Rule} {call : Call} (fits : rule.fits call = true) :
    rule.isAudit = call.isAudit := by
  obtain ⟨name, -⟩ := Bool.and_eq_true_iff.mp fits
  unfold Rule.isAudit
  rw [beq_iff_eq.mp name]
  cases call <;> rfl

theorem otherRules_cons_audit {rule : Rule} (audit : rule.isAudit = true) (number : Nat)
    (rest : List Count) : otherRules ((rule, number) :: rest) = otherRules rest := by
  simp [otherRules, audit]

theorem otherRules_cons {rule : Rule} (other : rule.isAudit = false) (number : Nat)
    (rest : List Count) :
    otherRules ((rule, number) :: rest) = (rule, number) :: otherRules rest := by
  simp [otherRules, other]

/-- A call for the audit counts with the rules about the audit only. -/
theorem otherRules_count_audit {call : Call} (audit : call.isAudit = true) (rules : List Count) :
    otherRules (count call rules).2 = otherRules rules := by
  induction rules with
  | nil => rfl
  | cons entry rest ih =>
      obtain ⟨rule, number⟩ := entry
      unfold count
      split
      · rename_i fits
        have about : rule.isAudit = true := (Rule.isAudit_of_fits fits).trans audit
        split
        · rw [otherRules_cons_audit about, otherRules_cons_audit about]
        · exact (otherRules_cons_audit about _ _).trans
            (ih.trans (otherRules_cons_audit about _ _).symm)
      · cases about : rule.isAudit
        · exact (otherRules_cons about _ _).trans
            ((congrArg _ ih).trans (otherRules_cons about _ _).symm)
        · exact (otherRules_cons_audit about _ _).trans
            (ih.trans (otherRules_cons_audit about _ _).symm)

/-- For any other call the rules about the audit might as well not be there. -/
theorem count_otherRules {call : Call} (ordinary : call.isAudit = false) (rules : List Count) :
    count call (otherRules rules) = ((count call rules).1, otherRules (count call rules).2) := by
  induction rules with
  | nil => rfl
  | cons entry rest ih =>
      obtain ⟨rule, number⟩ := entry
      cases about : rule.isAudit
      · rw [otherRules_cons about, count, count]
        split
        · split
          · rw [otherRules_cons about]
          · rw [ih, otherRules_cons about]
        · rw [ih, otherRules_cons about]
      · have misses : ¬ rule.fits call = true := by
          intro fits
          rw [Rule.isAudit_of_fits fits, ordinary] at about
          cases about
        rw [otherRules_cons_audit about, ih, count, if_neg misses, otherRules_cons_audit about]

variable {one other : State} {call : Call}

theorem AlikeButAudit.withCalls (alike : AlikeButAudit one other)
    (calls answered : List Answered) :
    AlikeButAudit { one with calls := calls } { other with calls := answered } := by
  obtain ⟨user, rules, _, rfl, same⟩ := alike
  exact ⟨user, rules, answered, rfl, same⟩

theorem setTransaction_alike (isOpen : Bool) (alike : AlikeButAudit one other) :
    (setTransaction isOpen other).1 = (setTransaction isOpen one).1 ∧
      AlikeButAudit (setTransaction isOpen one).2 (setTransaction isOpen other).2 := by
  obtain ⟨user, rules, calls, rfl, same⟩ := alike
  unfold setTransaction
  dsimp only
  split
  · exact ⟨rfl, user, rules, calls, rfl, same⟩
  · split <;> exact ⟨rfl, user, rules, calls, rfl, same⟩

theorem exec_alike (sql : String) (alike : AlikeButAudit one other) :
    (exec sql other).1 = (exec sql one).1 ∧
      AlikeButAudit (exec sql one).2 (exec sql other).2 := by
  unfold exec
  split
  · exact setTransaction_alike _ alike
  · exact setTransaction_alike _ alike
  · exact setTransaction_alike _ alike
  · exact ⟨rfl, alike⟩

theorem effect_alike (ordinary : call.isAudit = false) (alike : AlikeButAudit one other) :
    (effect call other).1 = (effect call one).1 ∧
      AlikeButAudit (effect call one).2 (effect call other).2 := by
  cases call with
  | begin => exact setTransaction_alike true alike
  | commit => exact setTransaction_alike false alike
  | rollback => exact setTransaction_alike false alike
  | exec sql => exact exec_alike sql alike
  | lock | unlock =>
      obtain ⟨user, rules, calls, rfl, same⟩ := alike
      simp only [effect]
      split <;> exact ⟨rfl, user, rules, calls, rfl, same⟩
  | loadCsv | schemaNames | foreignKeys | schemaItems | close =>
      obtain ⟨user, rules, calls, rfl, same⟩ := alike
      exact ⟨rfl, user, rules, calls, rfl, same⟩
  | currentUser | recordAudit => cases ordinary

theorem answer_alike (ordinary : call.isAudit = false) (alike : AlikeButAudit one other) :
    (answer call other).1 = (answer call one).1 ∧
      AlikeButAudit (answer call one).2 (answer call other).2 := by
  obtain ⟨user, rules, calls, rfl, same⟩ := alike
  have counted : ((count call rules).1, otherRules (count call rules).2) =
      ((count call one.rules).1, otherRules (count call one.rules).2) := by
    rw [← count_otherRules ordinary, ← count_otherRules ordinary, same]
  obtain ⟨sameError, sameRules⟩ := Prod.mk.inj counted
  unfold answer
  split
  · exact ⟨rfl, user, rules, calls, rfl, same⟩
  · dsimp only
    rw [sameError]
    split
    · exact ⟨rfl, user, _, calls, rfl, sameRules⟩
    · exact effect_alike ordinary ⟨user, _, calls, rfl, sameRules⟩

/-- A call for the audit changes no more than what such states differ in. -/
theorem answer_audit (audit : call.isAudit = true) (state : State) :
    AlikeButAudit state (answer call state).2 := by
  have rules := otherRules_count_audit audit state.rules
  unfold answer
  split
  · exact ⟨_, _, _, rfl, rfl⟩
  · dsimp only
    split
    · exact ⟨_, _, _, rfl, rules⟩
    · cases call with
      | currentUser | recordAudit => exact ⟨_, _, _, rfl, rules⟩
      | _ => cases audit

/-- Calls for the audit leave the states alike, whatever each of them is answered. -/
theorem answer_audit_alike {twin : Call} (audit : call.isAudit = true)
    (auditToo : twin.isAudit = true) (alike : AlikeButAudit one other) :
    AlikeButAudit (answer call one).2 (answer twin other).2 := by
  obtain ⟨_, _, _, first, sameFirst⟩ := answer_audit audit one
  obtain ⟨_, _, _, second, sameSecond⟩ := answer_audit auditToo other
  obtain ⟨_, _, _, rfl, same⟩ := alike
  rw [first, second]
  exact ⟨_, _, _, rfl, sameSecond.trans (same.trans sameFirst.symm)⟩

/-- Scripts that differ in their rules about the audit. -/
theorem auditApart : Database.AuditApart database database AlikeButAudit where
  answers alike ordinary := (answer_alike ordinary alike).1
  keeps alike ordinary := (answer_alike ordinary alike).2.withCalls _ _
  asks alike := (answer_audit_alike rfl rfl alike).withCalls _ _
  notes alike _ _ := (answer_audit_alike rfl rfl alike).withCalls _ _

end Script

end Rollout
