import PositionSync.Proofs.Source.Texts

/-!
# The first terminator decides

Data either show their first line, as a run of octets with a terminator behind it, or leave open where it
ends, and which of the two they do is seen from the octets alone. The shortest front of the data that shows
the line decides it: no octet behind can change it, and no shorter front shows any line.
-/

namespace PositionSync

namespace Terminator

/-- Whether a terminator is recognised in front of some octets: a carriage return stands alone only if
there is another octet behind it than a line feed. -/
def IsFollowedBy : Terminator → List UInt8 → Prop
  | carriageReturn, rest => ∃ next later, rest = next :: later ∧ next ≠ PositionSync.lineFeed
  | lineFeed, _ | both, _ => True

/-- The number of octets by which a terminator is recognised: behind a carriage return the next octet has
to be known. -/
def span : Terminator → Nat
  | lineFeed => 1
  | carriageReturn | both => 2

end Terminator

/-- Octets that belong to a line: none of them ends it. -/
structure IsRun (octets : List UInt8) : Prop where
  noFeed : lineFeed ∉ octets
  noReturn : carriageReturn ∉ octets

theorem isRun_cons_iff {octet : UInt8} {octets : List UInt8} :
    IsRun (octet :: octets) ↔
      (octet ≠ lineFeed ∧ octet ≠ carriageReturn) ∧ IsRun octets := by
  constructor
  · rintro ⟨noFeed, noReturn⟩
    rw [List.mem_cons, not_or] at noFeed noReturn
    exact ⟨⟨Ne.symm noFeed.1, Ne.symm noReturn.1⟩, noFeed.2, noReturn.2⟩
  · rintro ⟨⟨notFeed, notReturn⟩, noFeed, noReturn⟩
    constructor
    · exact List.not_mem_cons_of_ne_of_not_mem (Ne.symm notFeed) noFeed
    · exact List.not_mem_cons_of_ne_of_not_mem (Ne.symm notReturn) noReturn

/-- A line with its terminator stands at the front of data. -/
structure ShowsLine (data run : List UInt8) (terminator : Terminator) (rest : List UInt8) : Prop where
  whole : data = run ++ (terminator.octets ++ rest)
  isRun : IsRun run
  followed : terminator.IsFollowedBy rest

/-- Data in which the first line is not complete. Only a carriage return at the very end may be the
beginning of its terminator. -/
structure IsOpenLine (data : List UInt8) : Prop where
  noFeed : lineFeed ∉ data
  noReturn : carriageReturn ∉ data.dropLast

theorem IsRun.isOpenLine {data : List UInt8} (isRun : IsRun data) : IsOpenLine data :=
  ⟨isRun.noFeed, fun member => isRun.noReturn (List.dropLast_sublist _ |>.mem member)⟩

theorem IsRun.isOpenLine_concat {run : List UInt8} (isRun : IsRun run) :
    IsOpenLine (run ++ [carriageReturn]) := by
  constructor
  · rw [List.mem_append, not_or]
    exact ⟨isRun.noFeed, by decide⟩
  · rw [List.dropLast_concat]
    exact isRun.noReturn

theorem IsOpenLine.cons {octet : UInt8} {data : List UInt8} (isOpen : IsOpenLine data)
    (notFeed : octet ≠ lineFeed) (notReturn : octet ≠ carriageReturn) : IsOpenLine (octet :: data) := by
  constructor
  · exact List.not_mem_cons_of_ne_of_not_mem (Ne.symm notFeed) isOpen.noFeed
  · cases data with
    | nil => exact List.not_mem_nil
    | cons next data =>
        rw [List.dropLast_cons_cons]
        exact List.not_mem_cons_of_ne_of_not_mem (Ne.symm notReturn) isOpen.noReturn

/-- There is nothing besides. -/
theorem isOpenLine_or_showsLine (data : List UInt8) :
    IsOpenLine data ∨ ∃ run terminator rest, ShowsLine data run terminator rest := by
  have nothing : IsRun [] := ⟨List.not_mem_nil, List.not_mem_nil⟩
  induction data with
  | nil => exact .inl nothing.isOpenLine
  | cons octet data ih =>
      by_cases isFeed : octet = lineFeed
      · subst isFeed
        exact .inr ⟨[], .lineFeed, data, rfl, nothing, trivial⟩
      by_cases isReturn : octet = carriageReturn
      · subst isReturn
        cases data with
        | nil => exact .inl nothing.isOpenLine_concat
        | cons next data =>
            right
            by_cases feedNext : next = lineFeed
            · subst feedNext
              exact ⟨[], .both, data, rfl, nothing, trivial⟩
            · exact ⟨[], .carriageReturn, next :: data, rfl, nothing, next, data, rfl, feedNext⟩
      · rcases ih with isOpen | ⟨run, terminator, rest, whole, isRun, followed⟩
        · exact .inl (isOpen.cons isFeed isReturn)
        · subst whole
          exact .inr ⟨octet :: run, terminator, rest, rfl,
            isRun_cons_iff.2 ⟨⟨isFeed, isReturn⟩, isRun⟩, followed⟩

theorem splitOctets?_of_showsLine {data run rest : List UInt8} {terminator : Terminator}
    (shown : ShowsLine data run terminator rest) :
    splitOctets? data = some (run, run.length + terminator.octets.length) := by
  obtain ⟨rfl, ⟨noFeed, noReturn⟩, followed⟩ := shown
  have behind : splitOctets? (terminator.octets ++ rest) = some ([], terminator.octets.length) := by
    cases terminator with
    | lineFeed => exact splitOctets?_lineFeed rest
    | both => exact splitOctets?_carriageReturn rest lineFeed
    | carriageReturn =>
        obtain ⟨next, later, rfl, notFeed⟩ := followed
        have split := splitOctets?_carriageReturn later next
        rwa [if_neg notFeed] at split
  rw [splitOctets?_append_of_notMem _ noFeed noReturn, behind]
  simp

theorem splitOctets?_of_isOpenLine {data : List UInt8} (isOpen : IsOpenLine data) :
    splitOctets? data = none := by
  rcases data.eq_nil_or_concat' with rfl | ⟨front, last, rfl⟩
  · rfl
  obtain ⟨noFeed, noReturn⟩ := isOpen
  rw [List.dropLast_concat] at noReturn
  rw [List.mem_append, not_or] at noFeed
  have atEnd : splitOctets? [last] = none := by
    by_cases isReturn : last = carriageReturn
    · subst isReturn
      rfl
    · have notFeed : last ≠ lineFeed := fun isFeed => noFeed.2 (isFeed ▸ List.mem_singleton_self _)
      rw [splitOctets?_of_ne _ notFeed isReturn]
      rfl
  rw [splitOctets?_append_of_notMem _ noFeed.1 noReturn, atEnd, Option.map_none]

section FirstLine

variable {data run rest : List UInt8} {terminator : Terminator}

/-- The line that stands at the front of data. -/
def lineOf (run : List UInt8) (terminator : Terminator) : SplitLine :=
  ⟨Utf8.decodeLossy run, run.length + terminator.octets.length⟩

theorem splitLine?_of_showsLine (shown : ShowsLine data run terminator rest) :
    splitLine? data = some (lineOf run terminator) := by
  rw [splitLine?, splitOctets?_of_showsLine shown]
  rfl

theorem splitLine?_of_isOpenLine (isOpen : IsOpenLine data) : splitLine? data = none := by
  rw [splitLine?, splitOctets?_of_isOpenLine isOpen]
  rfl

theorem splitLine?_eq_none_iff : splitLine? data = none ↔ IsOpenLine data := by
  refine ⟨fun noLine => ?_, splitLine?_of_isOpenLine⟩
  rcases isOpenLine_or_showsLine data with isOpen | ⟨run, terminator, rest, shown⟩
  · exact isOpen
  · rw [splitLine?_of_showsLine shown] at noLine
    nomatch noLine

theorem splitLine?_eq_some_iff {line : SplitLine} :
    splitLine? data = some line ↔
      ∃ run terminator rest, ShowsLine data run terminator rest ∧ line = lineOf run terminator := by
  constructor
  · intro split
    rcases isOpenLine_or_showsLine data with isOpen | ⟨run, terminator, rest, shown⟩
    · rw [splitLine?_of_isOpenLine isOpen] at split
      nomatch split
    · rw [splitLine?_of_showsLine shown] at split
      exact ⟨run, terminator, rest, shown, (Option.some.inj split).symm⟩
  · rintro ⟨run, terminator, rest, shown, rfl⟩
    exact splitLine?_of_showsLine shown

/-- A front of the data that ends before the terminator is recognised shows no line. -/
theorem isOpenLine_take (shown : ShowsLine data run terminator rest) {count : Nat}
    (short : count < run.length + terminator.span) : IsOpenLine (data.take count) := by
  obtain ⟨rfl, isRun, -⟩ := shown
  rw [List.take_append]
  by_cases within : count ≤ run.length
  · rw [Nat.sub_eq_zero_of_le within, List.take_zero, List.append_nil]
    have isRunTaken : IsRun (run.take count) :=
      ⟨fun member => isRun.noFeed (List.mem_of_mem_take member),
        fun member => isRun.noReturn (List.mem_of_mem_take member)⟩
    exact isRunTaken.isOpenLine
  · -- Only the first octet of a terminator of two is left, or of a return that is not yet known to be alone.
    have atMost : terminator.span ≤ 2 := by cases terminator <;> decide
    have first : count - run.length = 1 ∧ terminator.span = 2 := by omega
    have returned : (terminator.octets ++ rest).take 1 = [carriageReturn] := by
      cases terminator with
      | lineFeed => exact absurd first.2 (by decide)
      | carriageReturn | both => rfl
    rw [List.take_of_length_le (by omega), first.1, returned]
    exact isRun.isOpenLine_concat

/-- A front of the data in which the terminator is recognised shows the line. -/
theorem showsLine_take (shown : ShowsLine data run terminator rest) {count : Nat}
    (long : run.length + terminator.span ≤ count) :
    ∃ later, ShowsLine (data.take count) run terminator later := by
  obtain ⟨rfl, isRun, followed⟩ := shown
  have atMost : terminator.octets.length ≤ terminator.span := by cases terminator <;> decide
  refine ⟨rest.take (count - run.length - terminator.octets.length), ?_, isRun, ?_⟩
  · rw [List.take_append, List.take_append, List.take_of_length_le (by omega),
      List.take_of_length_le (l := terminator.octets) (by omega)]
  · cases terminator with
    | lineFeed | both => trivial
    | carriageReturn =>
        obtain ⟨next, later, rfl, notFeed⟩ := followed
        obtain ⟨more, positive⟩ : ∃ more, count - run.length -
            Terminator.carriageReturn.octets.length = more + 1 := by
          refine Nat.exists_eq_add_one.2 ?_
          simp only [Terminator.span, Terminator.octets, List.length_singleton] at long ⊢
          omega
        rw [positive, List.take_succ_cons]
        exact ⟨next, later.take more, rfl, notFeed⟩

theorem splitLine?_take (shown : ShowsLine data run terminator rest) (count : Nat) :
    splitLine? (data.take count) =
      if run.length + terminator.span ≤ count then some (lineOf run terminator) else none := by
  split
  · next long =>
    obtain ⟨later, showsTaken⟩ := showsLine_take shown long
    exact splitLine?_of_showsLine showsTaken
  · next short => exact splitLine?_of_isOpenLine (isOpenLine_take shown (Nat.lt_of_not_le short))

end FirstLine

/-- Splitting that begins behind some of the lines gives the others. -/
theorem allLines_drop_usedBy {data : List UInt8} {count : Nat} (few : count ≤ (allLines data).1.length) :
    allLines (data.drop (usedBy ((allLines data).1.take count))) =
      ((allLines data).1.drop count, (allLines data).2) := by
  obtain ⟨lines, length, -, splits⟩ := endsAt_take few
  have whole := splits.allLines_eq
  have later : (allLines data).1.drop count =
      (allLines (data.drop (usedBy ((allLines data).1.take count)))).1 := by
    have first := congrArg Prod.fst whole
    rw [first, List.drop_left' length, ← first]
  rw [later, congrArg Prod.snd whole]

/-- The first line of data is there as soon as its terminator is recognised, and is the same in all longer
data. Without such a terminator there is no line. Therefore the lines of data are the first lines of all
longer data, and splitting may begin again behind every line. -/
theorem first_terminator_decides_lines (data more : List UInt8) :
    (splitLine? data = none ↔ IsOpenLine data) ∧
    (∀ line, splitLine? data = some line ↔
      ∃ run terminator rest, ShowsLine data run terminator rest ∧ line = lineOf run terminator) ∧
    (∀ line, splitLine? data = some line →
      1 ≤ line.used ∧ line.used ≤ data.length ∧ splitLine? (data ++ more) = some line ∧
        ∃ decisive, ∀ count, splitLine? (data.take count) =
          if decisive ≤ count then some line else none) ∧
    (Splits data (allLines data).1 (allLines data).2 ∧ splitLine? (allLines data).2 = none) ∧
    (allLines data).1 <+: (allLines (data ++ more)).1 ∧
    ∀ count ≤ (allLines data).1.length,
      allLines (data.drop (usedBy ((allLines data).1.take count))) =
        ((allLines data).1.drop count, (allLines data).2) := by
  refine ⟨splitLine?_eq_none_iff, fun line => splitLine?_eq_some_iff, fun line split => ?_,
    ⟨splits_allLines data, splitLine?_allLines_snd data⟩, allLines_fst_isPrefix_append data more,
    fun count few => allLines_drop_usedBy few⟩
  obtain ⟨positive, within⟩ := splitLine?_used split
  obtain ⟨run, terminator, rest, shown, rfl⟩ := splitLine?_eq_some_iff.1 split
  exact ⟨positive, within, splitLine?_append split more, _, splitLine?_take shown⟩

/-- Three terminators in a row and a return whose line feed may still come. -/
example : splitLine? [13, 13, 10, 10] = some ⟨"", 1⟩ ∧
    (allLines [13, 13, 10, 10]).1 = [⟨"", 1⟩, ⟨"", 2⟩, ⟨"", 1⟩] ∧
    splitLine? [97, 13] = none := by
  decide

end PositionSync
