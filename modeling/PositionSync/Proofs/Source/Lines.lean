import PositionSync.Source.Line

/-!
# Lines in growing data

Lines are split off the front of the data one after the other. A line that has been split off remains
the same when more data follow, so the lines of some data are the first lines of all longer data, and
splitting may be broken off and taken up again behind every line.
-/

namespace PositionSync

theorem splitOctets?_append {data line : List UInt8} {used : Nat}
    (split : splitOctets? data = some (line, used)) (more : List UInt8) :
    splitOctets? (data ++ more) = some (line, used) := by
  induction data generalizing line used with
  | nil => simp [splitOctets?] at split
  | cons octet rest ih =>
      rw [splitOctets?.eq_def] at split
      rw [List.cons_append, splitOctets?.eq_def]
      dsimp only at split ⊢
      split at split
      · next feed => simpa [feed] using split
      · next noFeed =>
        rw [if_neg noFeed]
        split at split
        · next isReturn =>
          cases rest with
          | nil => simp at split
          | cons next rest => simpa [isReturn] using split
        · next noReturn =>
          obtain ⟨⟨before, count⟩, earlier, same⟩ := Option.map_eq_some_iff.1 split
          simpa [noReturn, ih earlier] using same

theorem splitOctets?_used {data line : List UInt8} {used : Nat}
    (split : splitOctets? data = some (line, used)) : 0 < used ∧ used ≤ data.length := by
  induction data generalizing line used with
  | nil => simp [splitOctets?] at split
  | cons octet rest ih =>
      rw [splitOctets?.eq_def] at split
      dsimp only at split
      split at split
      · obtain ⟨-, rfl⟩ : [] = line ∧ 1 = used := by simpa using split
        simp
      · split at split
        · cases rest with
          | nil => simp at split
          | cons next rest =>
              obtain ⟨-, rfl⟩ : [] = line ∧ (if next = lineFeed then 2 else 1) = used := by
                simpa using split
              split <;> simp
        · obtain ⟨⟨before, count⟩, earlier, same⟩ := Option.map_eq_some_iff.1 split
          obtain ⟨-, rfl⟩ : octet :: before = line ∧ count + 1 = used := by simpa using same
          have bounds := ih earlier
          simp only [List.length_cons]
          omega

section Line

variable {data : List UInt8} {line : SplitLine} (split : splitLine? data = some line)
include split

theorem splitLine?_append (more : List UInt8) : splitLine? (data ++ more) = some line := by
  obtain ⟨⟨octets, used⟩, octetsSplit, same⟩ := Option.map_eq_some_iff.1 split
  rw [splitLine?, splitOctets?_append octetsSplit more, Option.map_some, same]

theorem splitLine?_used : 0 < line.used ∧ line.used ≤ data.length := by
  obtain ⟨⟨octets, used⟩, octetsSplit, same⟩ := Option.map_eq_some_iff.1 split
  rw [← same]
  exact splitOctets?_used octetsSplit

end Line

/-- The octets that some lines took. -/
def usedBy (lines : List SplitLine) : Nat := (lines.map SplitLine.used).foldr (· + ·) 0

@[simp]
theorem usedBy_nil : usedBy [] = 0 :=
  rfl

@[simp]
theorem usedBy_cons (line : SplitLine) (lines : List SplitLine) :
    usedBy (line :: lines) = line.used + usedBy lines :=
  rfl

@[simp]
theorem usedBy_append (lines others : List SplitLine) :
    usedBy (lines ++ others) = usedBy lines + usedBy others := by
  induction lines with
  | nil => simp
  | cons line lines ih => simp [ih, Nat.add_assoc]

/-- Some lines stand at the front of data one after the other, with a rest behind them. -/
inductive Splits : List UInt8 → List SplitLine → List UInt8 → Prop where
  | stop (data : List UInt8) : Splits data [] data
  | line {data rest : List UInt8} {line : SplitLine} {lines : List SplitLine}
      (split : splitLine? data = some line) (later : Splits (data.drop line.used) lines rest) :
      Splits data (line :: lines) rest

namespace Splits

variable {data middle rest : List UInt8} {lines others : List SplitLine}

theorem append (splits : Splits data lines rest) (more : List UInt8) :
    Splits (data ++ more) lines (rest ++ more) := by
  induction splits with
  | stop data => exact .stop (data ++ more)
  | line split later ih =>
      refine .line (splitLine?_append split more) ?_
      rwa [List.drop_append_of_le_length (splitLine?_used split).2]

theorem trans (first : Splits data lines middle) (second : Splits middle others rest) :
    Splits data (lines ++ others) rest := by
  induction first with
  | stop data => exact second
  | line split later ih => exact .line split (ih second)

theorem of_append (splits : Splits data (lines ++ others) rest) :
    ∃ middle, Splits data lines middle ∧ Splits middle others rest := by
  induction lines generalizing data with
  | nil => exact ⟨data, .stop data, splits⟩
  | cons line lines ih =>
      cases splits with
      | line split later =>
          obtain ⟨middle, first, second⟩ := ih later
          exact ⟨middle, .line split first, second⟩

theorem rest_eq_drop (splits : Splits data lines rest) :
    rest = data.drop (usedBy lines) ∧ usedBy lines ≤ data.length := by
  induction splits with
  | stop data => simp
  | @line data rest line lines split later ih =>
      have bounds := splitLine?_used split
      rw [List.drop_drop, List.length_drop] at ih
      rw [usedBy_cons]
      exact ⟨ih.1, by omega⟩

theorem length_le_usedBy (splits : Splits data lines rest) : lines.length ≤ usedBy lines := by
  induction splits with
  | stop data => simp
  | @line data rest line lines split later ih =>
      have bounds := splitLine?_used split
      rw [List.length_cons, usedBy_cons]
      omega

theorem unique {others : List SplitLine} {end_ : List UInt8} (first : Splits data lines rest)
    (noMore : splitLine? rest = none) (second : Splits data others end_)
    (noOther : splitLine? end_ = none) : lines = others ∧ rest = end_ := by
  induction first generalizing others with
  | stop data =>
      cases second with
      | stop => exact ⟨rfl, rfl⟩
      | line split later => simp [noMore] at split
  | @line data rest line lines split later ih =>
      cases second with
      | stop => simp [noOther] at split
      | line otherSplit otherLater =>
          obtain rfl : line = _ := Option.some.inj (split.symm.trans otherSplit)
          obtain ⟨rfl, rfl⟩ := ih noMore otherLater
          exact ⟨rfl, rfl⟩

end Splits

theorem splits_splitLines (limit : Nat) (data : List UInt8) :
    Splits data (splitLines limit data).1 (splitLines limit data).2 := by
  induction limit generalizing data with
  | zero => exact .stop data
  | succ limit ih =>
      rw [splitLines]
      split
      · exact .stop data
      · next line split => exact .line split (ih (data.drop line.used))

theorem length_splitLines_le (limit : Nat) (data : List UInt8) :
    (splitLines limit data).1.length ≤ limit := by
  induction limit generalizing data with
  | zero => simp [splitLines]
  | succ limit ih =>
      rw [splitLines]
      split
      · simp
      · next line _ => simpa using ih (data.drop line.used)

/-- Splitting ends before the limit only where no line is complete. -/
theorem splitLine?_rest_of_lt {limit : Nat} {data : List UInt8}
    (few : (splitLines limit data).1.length < limit) :
    splitLine? (splitLines limit data).2 = none := by
  induction limit generalizing data with
  | zero => simp at few
  | succ limit ih =>
      rw [splitLines] at few ⊢
      split
      · next noLine => exact noLine
      · next line split =>
        simp only [split, List.length_cons] at few
        exact ih (by omega)

theorem splits_allLines (data : List UInt8) : Splits data (allLines data).1 (allLines data).2 :=
  splits_splitLines data.length data

theorem splitLine?_allLines_snd (data : List UInt8) : splitLine? (allLines data).2 = none := by
  have splits := splits_allLines data
  by_cases few : (allLines data).1.length < data.length
  · exact splitLine?_rest_of_lt few
  · -- Every line takes an octet at least, so as many lines as octets leave nothing.
    have nothingLeft : (allLines data).2 = [] := by
      have used := splits.length_le_usedBy
      rw [splits.rest_eq_drop.1, List.drop_eq_nil_iff]
      omega
    rw [nothingLeft]
    rfl

/-- The lines of data are those that have been split off, and then those of the rest. -/
theorem Splits.allLines_eq {data rest : List UInt8} {lines : List SplitLine}
    (splits : Splits data lines rest) :
    allLines data = (lines ++ (allLines rest).1, (allLines rest).2) := by
  have whole := (splits_allLines data).unique (splitLine?_allLines_snd data)
    (splits.trans (splits_allLines rest)) (splitLine?_allLines_snd rest)
  exact Prod.ext whole.1 whole.2

/-- Complete lines remain as they are when data grow. -/
theorem allLines_fst_isPrefix_append (data more : List UInt8) :
    (allLines data).1 <+: (allLines (data ++ more)).1 := by
  rw [((splits_allLines data).append more).allLines_eq]
  exact List.prefix_append _ _

theorem Splits.allLines_of_none {data rest : List UInt8} {lines : List SplitLine}
    (splits : Splits data lines rest) (noMore : splitLine? rest = none) :
    (allLines data).1 = lines :=
  ((splits_allLines data).unique (splitLine?_allLines_snd data) splits noMore).1

/-- Some first lines of the data end at a position; `count` is their number. -/
def EndsAt (data : List UInt8) (count position : Nat) : Prop :=
  ∃ lines, lines.length = count ∧ usedBy lines = position ∧
    Splits data lines (data.drop position)

namespace EndsAt

variable {data : List UInt8} {count position : Nat}

theorem zero (data : List UInt8) : EndsAt data 0 0 :=
  ⟨[], rfl, rfl, .stop data⟩

theorem position_le (ends : EndsAt data count position) : position ≤ data.length := by
  obtain ⟨lines, -, rfl, splits⟩ := ends
  exact splits.rest_eq_drop.2

theorem grow (ends : EndsAt data count position) (more : List UInt8) :
    EndsAt (data ++ more) count position := by
  have inside := ends.position_le
  obtain ⟨lines, length, used, splits⟩ := ends
  refine ⟨lines, length, used, ?_⟩
  rw [List.drop_append_of_le_length inside]
  exact splits.append more

theorem extend (ends : EndsAt data count position) {lines : List SplitLine}
    (splits : Splits (data.drop position) lines (data.drop (position + usedBy lines))) :
    EndsAt data (count + lines.length) (position + usedBy lines) := by
  obtain ⟨before, rfl, rfl, first⟩ := ends
  exact ⟨before ++ lines, by simp, by simp, first.trans splits⟩

/-- The lines behind a position at which lines end. -/
theorem drop_allLines (ends : EndsAt data count position) :
    ∃ lines, lines.length = count ∧ usedBy lines = position ∧
      (allLines data).1 = lines ++ (allLines (data.drop position)).1 := by
  obtain ⟨lines, length, used, splits⟩ := ends
  exact ⟨lines, length, used, by rw [splits.allLines_eq]⟩

end EndsAt

theorem endsAt_take {data : List UInt8} {count : Nat} (few : count ≤ (allLines data).1.length) :
    EndsAt data count (usedBy ((allLines data).1.take count)) := by
  have splits := splits_allLines data
  rw [← List.take_append_drop count (allLines data).1] at splits
  obtain ⟨middle, first, -⟩ := splits.of_append
  obtain ⟨rfl, -⟩ := first.rest_eq_drop
  exact ⟨_, List.length_take_of_le few, rfl, first⟩

end PositionSync
