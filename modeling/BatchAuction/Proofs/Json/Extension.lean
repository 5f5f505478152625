import BatchAuction.Proofs.Json.Spelling

/-!
# What follows a value

The reader takes the tokens of one value and never looks past its end: each token leads on,
completes the value or leaves damage in the document. A text whose document is undamaged is
therefore used up by its last token, and in front of other bytes it spells the same
document, unless it is a number that the other bytes go on with.
-/

set_option autoImplicit false

namespace BatchAuction.Json

variable {stack : List Frame} {stage : Stage} {token : Token} {rest : List Token}
  {document : Document} {bytes : List UInt8}

theorem tokens_eq_nil_iff : tokens bytes = [] ↔ ∀ byte ∈ bytes, isBlank byte = true := by
  induction bytes with
  | nil => simp [tokens]
  | cons first bytes ih =>
      rw [tokens]
      by_cases blank : isBlank first = true
      · simp [blank, ih]
      · simp [blank]

/-!
## Damage
-/

/-- Who passes over the document meets damage. -/
def Document.Damaged (document : Document) : Prop := document.skip? ≠ none

theorem damaged_listInside {items : List Document} {ending : ListEnd}
    (bad : ending.skipped? ≠ none) : (listInside stack items ending).Damaged := by
  unfold Document.Damaged listInside
  rw [Document.skip?, ne_eq, Option.or_eq_none_iff, not_and]
  exact fun _ => bad

theorem damaged_objectInside {members : List (Readable String × Document)} {ending : ObjectEnd}
    (bad : ending.skipped? ≠ none) : (objectInside stack members ending).Damaged := by
  unfold Document.Damaged objectInside
  rw [Document.skip?, ne_eq, Option.or_eq_none_iff, not_and]
  exact fun _ => bad

/-- Damage stays in the document when the open containers are closed around it. -/
theorem damaged_unwind (damaged : document.Damaged) (stack : List Frame) :
    (unwind stack document).Damaged := by
  induction stack generalizing document with
  | nil => exact damaged
  | cons frame stack ih =>
      cases frame with
      | list items => exact ih (damaged_listInside (by nofun))
      | object members key => exact ih (damaged_objectInside (by nofun))

theorem damaged_cutOff (stage : Stage) : (cutOff stack stage).Damaged := by
  cases stage with
  | value => exact Option.some_ne_none _
  | firstItem | leadingComma | nextItem | afterItem =>
      exact damaged_listInside (by nofun)
  | firstKey | nextKey | afterKey | afterMember =>
      exact damaged_objectInside (by nofun)

/-!
## Steps
-/

/-- What may come of a token: it completes a value, which is the token itself if that is a
number, or it leads on, or it leaves damage. Only damage comes of a token that breaks off. -/
inductive Progress.Of (token : Token) : Progress → Prop where
  | more {stack : List Frame} {stage : Stage} : ¬ token.Broken → Of token (.more stack stage)
  | complete {document : Document} : ¬ token.Broken →
      (∀ value, token = .number value → document = .number value) → Of token (.complete document)
  | damaged {document : Document} : document.Damaged → Of token (.damaged document)

theorem settle_of (whole : ¬ token.Broken)
    (same : ∀ value, token = .number value → document = .number value) :
    (settle stack document).Of token := by
  cases stack with
  | nil => exact .complete whole same
  | cons frame stack => cases frame <;> exact .more whole

theorem damagedValue_of {fault : Fault} (met : document.skip? = some fault)
    (stack : List Frame) : (damagedValue stack document).Of token :=
  .damaged (damaged_unwind (by simp [Document.Damaged, met]) stack)

theorem damagedList_of {items : List Document} {ending : ListEnd} (bad : ending.skipped? ≠ none)
    (stack : List Frame) : (damagedList stack items ending).Of token :=
  .damaged (damaged_unwind (damaged_listInside bad) stack)

theorem damagedObject_of {members : List (Readable String × Document)} {ending : ObjectEnd}
    (bad : ending.skipped? ≠ none) (stack : List Frame) :
    (damagedObject stack members ending).Of token :=
  .damaged (damaged_unwind (damaged_objectInside bad) stack)

theorem takeValue_of (stack : List Frame) (token : Token) : (takeValue stack token).Of token := by
  cases token with
  | null | boolean | text => exact settle_of nofun fun _ same => nomatch same
  | number value => exact settle_of nofun fun other same => by cases same; rfl
  | listOpen | objectOpen => exact .more nofun
  | _ => exact damagedValue_of rfl stack

theorem takeKey_of (stack : List Frame) (members : List (Readable String × Document))
    (token : Token) : (takeKey stack members token).Of token := by
  cases token with
  | text => exact .more nofun
  | _ => exact damagedObject_of (by nofun) stack

theorem step_of (stack : List Frame) (stage : Stage) (token : Token) :
    (step stack stage token).Of token := by
  cases stage with
  | value => exact takeValue_of stack token
  | firstItem =>
      have item := takeValue_of (.list [] :: stack) token
      cases token with
      | listClose => exact settle_of nofun fun _ same => nomatch same
      | comma => exact .more nofun
      | _ => exact item
  | leadingComma => exact damagedValue_of rfl _
  | nextItem items =>
      have item := takeValue_of (.list items :: stack) token
      cases token with
      | listClose => exact damagedList_of (by nofun) stack
      | _ => exact item
  | afterItem items =>
      cases token with
      | comma => exact .more nofun
      | listClose => exact settle_of nofun fun _ same => nomatch same
      | _ => exact damagedList_of (by nofun) stack
  | firstKey =>
      have key := takeKey_of stack [] token
      cases token with
      | objectClose => exact settle_of nofun fun _ same => nomatch same
      | _ => exact key
  | nextKey members =>
      have key := takeKey_of stack members token
      cases token with
      | objectClose => exact damagedObject_of (by nofun) stack
      | _ => exact key
  | afterKey members key =>
      cases token with
      | colon => exact .more nofun
      | _ => exact damagedObject_of (by nofun) stack
  | afterMember members =>
      cases token with
      | comma => exact .more nofun
      | objectClose => exact settle_of nofun fun _ same => nomatch same
      | _ => exact damagedObject_of (by nofun) stack

/-!
## Runs
-/

/-- The tokens lead to the document, which the last of them completes. -/
inductive Completes : List Frame → Stage → List Token → Document → Prop where
  | last {stack : List Frame} {stage : Stage} {token : Token} {document : Document} :
      step stack stage token = .complete document → Completes stack stage [token] document
  | more {stack next : List Frame} {stage following : Stage} {token : Token} {rest : List Token}
      {document : Document} : step stack stage token = .more next following →
      Completes next following rest document → Completes stack stage (token :: rest) document

/-- A run that leaves nothing over has used up all tokens, unless the document is damaged. -/
theorem completes_of_run {spent : List Token} (sound : ¬ document.Damaged)
    (finished : run stack stage spent = ⟨document, false⟩) :
    Completes stack stage spent document := by
  induction spent generalizing stack stage with
  | nil =>
      -- A value that is not complete is cut off, which is damage.
      cases finished
      exact absurd (damaged_unwind (damaged_cutOff stage) stack) sound
  | cons token rest ih =>
      have leads := step_of stack stage token
      rw [run_cons] at finished
      cases progress : step stack stage token with
      | more next following =>
          rw [progress] at finished
          exact .more progress (ih finished)
      | complete found =>
          rw [progress] at finished
          obtain ⟨rfl, none⟩ := Reading.mk.inj finished
          -- Tokens behind the value would be left over.
          cases rest with
          | nil => exact .last progress
          | cons => cases none
      | damaged found =>
          rw [progress] at finished leads
          cases finished
          cases leads with
          | damaged damage => exact absurd damage sound

namespace Completes

variable {spent : List Token}

/-- What follows is left over. -/
theorem run_append (completes : Completes stack stage spent document) (more : List Token) :
    run stack stage (spent ++ more) = ⟨document, !more.isEmpty⟩ := by
  induction completes with
  | last done => rw [List.singleton_append, run_cons, done, Progress.resume]
  | more leads _ ih => rw [List.cons_append, run_cons, leads, Progress.resume, ih]

theorem not_broken (completes : Completes stack stage spent document) :
    ∀ token ∈ spent, ¬ token.Broken := by
  induction completes with
  | @last stack stage token _ done =>
      have leads := step_of stack stage token
      rw [done] at leads
      cases leads with
      | complete whole _ => simpa using whole
  | @more stack _ stage _ token _ _ leads _ ih =>
      have own := step_of stack stage token
      rw [leads] at own
      cases own with
      | more whole => exact List.forall_mem_cons.mpr ⟨whole, ih⟩

/-- Only a number ends with a number. -/
theorem number_of_getLast? (completes : Completes stack stage spent document)
    {value : Readable Number} (last : spent.getLast? = some (.number value)) :
    document = .number value := by
  induction completes with
  | @last stack stage token _ done =>
      have leads := step_of stack stage token
      rw [done] at leads
      cases leads with
      | complete _ same => exact same value (by simpa using last)
  | @more _ _ _ _ _ rest _ _ completes ih =>
      cases completes <;> exact ih (by simpa using last)

end Completes

/-- A text that spells an undamaged document spells it in front of other bytes too, unless it is
a number. -/
theorem read_append (spelled : read bytes = ⟨document, false⟩) (sound : document.skip? = none)
    (other : document.isNumber = false) (more : List UInt8) :
    read (bytes ++ more) = ⟨document, !(tokens more).isEmpty⟩ := by
  have completes := completes_of_run (fun damaged => damaged sound) spelled
  have ends : ∀ value, (tokens bytes).getLast? = some (.number value) → EndsNumber more := by
    intro value last
    rw [completes.number_of_getLast? last] at other
    cases other
  rw [read, tokens_append completes.not_broken ends, completes.run_append]

end BatchAuction.Json
