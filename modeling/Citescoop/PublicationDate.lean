/-
The publication date of a work, which the snapshot gives as a date and which
`TimeUtil::FromString` wants with a time.
-/
import Citescoop.CalendarDate
import Citescoop.WorkReferences

namespace Citescoop

open Calendar

/-- The first of January 1970, from which timestamps count. -/
def unixEpoch : Date where
  year := 1970
  month := 1
  day := 1
  year_pos := by decide
  year_le := by decide
  month_pos := by decide
  month_le := by decide
  day_pos := by decide
  day_le := by decide

/-- The beginning of a date in UTC. -/
def midnight (date : Date) : Timestamp where
  seconds := ((date.dayNumber : ℤ) - unixEpoch.dayNumber) * 86400

theorem midnight_eq_default_iff {date : Date} : midnight date = {} ↔ date = unixEpoch := by
  constructor
  · intro hmidnight
    apply Date.dayNumber_injective
    have hseconds : ((date.dayNumber : ℤ) - unixEpoch.dayNumber) * 86400 = 0 :=
      congrArg Timestamp.seconds hmidnight
    omega
  · rintro rfl
    rfl

/-- `FromString` rejects a date alone, and the work is dated by a default
timestamp: that is right for the first of January 1970 and no other date, and
works are not told apart by their dates. -/
theorem publicationDate_eq_midnight_iff {timeFromString : Text → Option Timestamp}
    (hfromString : ∀ text timestamp, timeFromString text = some timestamp → 'T' ∈ text)
    {data : Json} {date : Date} (hdate : data.string? "publication_date" = some date.render)
    {work : Work} (hwork : extractWork timeFromString data = .ok work) :
    (work.publicationDate? = some (midnight date) ↔ date = unixEpoch) ∧
      ∀ (data' : Json) (date' : Date) (work' : Work),
        data'.string? "publication_date" = some date'.render →
        extractWork timeFromString data' = .ok work' →
        work'.publicationDate? = work.publicationDate? := by
  have hstored : ∀ (data' : Json) (date' : Date) (work' : Work),
      data'.string? "publication_date" = some date'.render →
      extractWork timeFromString data' = .ok work' → work'.publicationDate? = some {} := by
    intro data' date' work' hdate' hwork'
    have hrejected : timeFromString date'.render = none := by
      cases htime : timeFromString date'.render with
      | none => rfl
      | some timestamp => exact absurd (hfromString _ _ htime) date'.not_mem_render
    rcases extractWork_ok hwork' with ⟨-, -, -, -, -, -, hpublication⟩
    rw [hpublication, hdate', Option.map_some, hrejected, Option.getD_none]
  refine ⟨?_, ?_⟩
  · rw [hstored data date work hdate hwork, Option.some.injEq, eq_comm,
      midnight_eq_default_iff]
  · intro data' date' work' hdate' hwork'
    rw [hstored data' date' work' hdate' hwork', hstored data date work hdate hwork]

/-- The first of January 2023. -/
def newYear2023 : Date where
  year := 2023
  month := 1
  day := 1
  year_pos := by decide
  year_le := by decide
  month_pos := by decide
  month_le := by decide
  day_pos := by decide
  day_le := by decide

/-- `FromString` on one date with a time. -/
def documentedTime (text : Text) : Option Timestamp :=
  if text = "1972-01-01T10:00:20.021Z".toList then
    some { seconds := 63108020, nanos := 21000000 }
  else none

def datedRecord : Json :=
  .object [("authorships".toList, .array []), ("id".toList, .string "W1".toList),
    ("ids".toList, .object []),
    ("open_access".toList, .object [("oa_status".toList, .string "gold".toList),
      ("oa_url".toList, .null)]),
    ("publication_date".toList, .string "2023-01-01".toList)]

theorem publicationDate_eq_midnight_iff_2023 :
    ∃ work, extractWork documentedTime datedRecord = .ok work ∧
      (work.publicationDate? = some (midnight newYear2023) ↔ newYear2023 = unixEpoch) := by
  have hdocumented : ∀ text timestamp, documentedTime text = some timestamp →
      'T' ∈ text := by
    intro text timestamp htime
    rw [documentedTime] at htime
    split_ifs at htime with htext
    rw [htext]
    decide
  have hdate : datedRecord.string? "publication_date" = some newYear2023.render := rfl
  exact ⟨_, rfl, (publicationDate_eq_midnight_iff hdocumented hdate rfl).1⟩

/-- A work of the first of January 2023 is dated 1970. -/
theorem publicationDate_2023 :
    ∃ work, extractWork documentedTime datedRecord = .ok work ∧
      datedRecord.string? "publication_date" = some newYear2023.render ∧
      work.publicationDate? = some { seconds := 0, nanos := 0 } ∧
      (midnight newYear2023).seconds = 1672531200 :=
  ⟨_, rfl, rfl, rfl, by decide +kernel⟩

end Citescoop
