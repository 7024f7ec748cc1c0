import Mathlib.Data.List.Chain
import PinMachine.Program.Source

/-!
Lines and separators. A text is its lines with one separator between each two of them,
and splitting a text gives back the lines that were joined. The one thing that joining has
to avoid is a carriage return and a line feed with nothing in between, because the two
together are read as a single separator. Every text comes from joining its lines in this
way, so which separators a source uses makes no difference to the program that is read.
-/

namespace PinMachine

/-- A text without a line separator. -/
def OnOneLine (text : List Char) : Prop :=
  ∀ char ∈ text, char ≠ '\r' ∧ char ≠ '\n'

instance (text : List Char) : Decidable (OnOneLine text) :=
  List.decidableBAll (fun char => char ≠ '\r' ∧ char ≠ '\n') text

theorem OnOneLine.append {first second : List Char} (one : OnOneLine first)
    (other : OnOneLine second) : OnOneLine (first ++ second) :=
  List.forall_mem_append.mpr ⟨one, other⟩

theorem OnOneLine.cons {char : Char} {rest : List Char} (other : OnOneLine rest)
    (apart : char ≠ '\r' ∧ char ≠ '\n') : OnOneLine (char :: rest) :=
  List.forall_mem_cons.mpr ⟨apart, other⟩

theorem onOneLine_of_class {class? : Char → Bool} {text : List Char}
    (inside : ∀ char ∈ text, class? char = true)
    (without : class? '\r' = false ∧ class? '\n' = false) : OnOneLine text := by
  intro char member
  have accepted := inside char member
  constructor
  · rintro rfl
    rw [without.1] at accepted
    cases accepted
  · rintro rfl
    rw [without.2] at accepted
    cases accepted

theorem splitLinesFrom_append (finished : List (List Char)) (current rest : List Char)
    {text : List Char} (onOneLine : OnOneLine text) :
    splitLinesFrom finished current (text ++ rest) =
      splitLinesFrom finished (text.reverse ++ current) rest := by
  induction text generalizing current with
  | nil => rfl
  | cons char others ih =>
      obtain ⟨notReturn, notFeed⟩ := onOneLine char List.mem_cons_self
      have later := ih (char :: current) fun other member =>
        onOneLine other (List.mem_cons_of_mem _ member)
      rw [List.cons_append, splitLinesFrom]
      · rw [later, List.reverse_cons, List.append_assoc, List.singleton_append]
      · intro _others returns _rest
        exact notReturn returns
      · exact notReturn
      · exact notFeed

theorem splitLines_onOneLine {text : List Char} (onOneLine : OnOneLine text) :
    splitLines text = [text] := by
  have read := splitLinesFrom_append [] [] [] onOneLine
  rw [List.append_nil, List.append_nil] at read
  rw [splitLines, read, splitLinesFrom, List.reverse_reverse]
  rfl

theorem splitLinesFrom_length_pos (finished : List (List Char)) (current text : List Char) :
    0 < (splitLinesFrom finished current text).length := by
  fun_induction splitLinesFrom finished current text with
  | case1 finished current => simp
  | case2 finished current rest ih => exact ih
  | case3 finished current rest notFeed ih => exact ih
  | case4 finished current rest ih => exact ih
  | case5 finished current char rest notPair notReturn notFeed ih => exact ih

theorem splitLinesFrom_behind (finished : List (List Char)) (current text : List Char) :
    ∃ earlier, ∀ rest, splitLinesFrom finished current (text ++ '\n' :: rest) =
      splitLinesFrom earlier [] rest := by
  fun_induction splitLinesFrom finished current text with
  | case1 finished current => exact ⟨current.reverse :: finished, fun rest => rfl⟩
  | case2 finished current text ih => exact ih
  | case3 finished current text notFeed ih =>
      cases text with
      -- The line feed belongs to the separator that the carriage return begins.
      | nil => exact ⟨current.reverse :: finished, fun rest => rfl⟩
      | cons char others =>
          obtain ⟨earlier, behind⟩ := ih
          refine ⟨earlier, fun rest => ?_⟩
          rw [← behind rest, List.cons_append, splitLinesFrom]
          intro _others feed
          exact notFeed others (by rw [(List.cons.inj feed).1])
  | case4 finished current text ih => exact ih
  | case5 finished current char text notPair notReturn notFeed ih =>
      obtain ⟨earlier, behind⟩ := ih
      refine ⟨earlier, fun rest => ?_⟩
      rw [← behind rest, List.cons_append, splitLinesFrom]
      · intro _others returns _rest
        exact notReturn returns
      · exact notReturn
      · exact notFeed

theorem splitLinesFrom_line (finished : List (List Char)) (rest : List Char) {text : List Char}
    (onOneLine : OnOneLine text) :
    splitLinesFrom finished [] (text ++ '\n' :: rest) =
      splitLinesFrom (text :: finished) [] rest := by
  rw [splitLinesFrom_append finished [] _ onOneLine, splitLinesFrom, List.append_nil,
    List.reverse_reverse]

theorem onOneLine_of_mem_splitLinesFrom (finished : List (List Char)) (current text : List Char)
    (complete : ∀ line ∈ finished, OnOneLine line) (begun : OnOneLine current) :
    ∀ line ∈ splitLinesFrom finished current text, OnOneLine line := by
  have ended : ∀ (finished : List (List Char)) (current : List Char),
      (∀ line ∈ finished, OnOneLine line) → OnOneLine current →
        ∀ line ∈ current.reverse :: finished, OnOneLine line := by
    intro finished current complete begun
    rw [List.forall_mem_cons]
    exact ⟨fun char member => begun char (List.mem_reverse.mp member), complete⟩
  have blank : OnOneLine [] := by
    intro char member
    cases member
  fun_induction splitLinesFrom finished current text with
  | case1 finished current =>
      intro line member
      exact ended finished current complete begun line (List.mem_reverse.mp member)
  | case2 finished current rest ih => exact ih (ended finished current complete begun) blank
  | case3 finished current rest notFeed ih =>
      exact ih (ended finished current complete begun) blank
  | case4 finished current rest ih => exact ih (ended finished current complete begun) blank
  | case5 finished current char rest notPair notReturn notFeed ih =>
      exact ih complete (begun.cons ⟨notReturn, notFeed⟩)

theorem onOneLine_of_mem_splitLines (text : List Char) :
    ∀ line ∈ splitLines text, OnOneLine line := by
  apply onOneLine_of_mem_splitLinesFrom
  · intro line member
    cases member
  · intro char member
    cases member

/-- What ends a line. -/
inductive Separator where
  | pair
  | carriageReturn
  | lineFeed
  deriving DecidableEq, Repr

def Separator.text : Separator → List Char
  | .pair => ['\r', '\n']
  | .carriageReturn => ['\r']
  | .lineFeed => ['\n']

/-- A line, and behind it further lines, each with the separator before it. -/
def joinLines (first : List Char) (rest : List (Separator × List Char)) : List Char :=
  first ++ rest.flatMap fun line => line.1.text ++ line.2

/-- Nowhere do a carriage return and a line feed enclose an empty line. -/
def Unpaired (rest : List (Separator × List Char)) : Prop :=
  rest.IsChain fun line next =>
    ¬ (line.1 = .carriageReturn ∧ line.2 = [] ∧ next.1 = .lineFeed)

instance (rest : List (Separator × List Char)) : Decidable (Unpaired rest) :=
  inferInstanceAs (Decidable (rest.IsChain _))

theorem joinLines_cons (first : List Char) (separator : Separator) (line : List Char)
    (rest : List (Separator × List Char)) :
    joinLines first ((separator, line) :: rest) =
      first ++ (separator.text ++ joinLines line rest) := by
  simp only [joinLines, List.flatMap_cons, List.append_assoc]

theorem joinLines_eq_feed {first behind : List Char} {rest : List (Separator × List Char)}
    (onOneLine : OnOneLine first) (feed : joinLines first rest = '\n' :: behind) :
    first = [] ∧ ∃ next ∈ rest.head?, next.1 = .lineFeed := by
  cases first with
  | cons char others =>
      rw [joinLines, List.cons_append] at feed
      exact False.elim ((onOneLine char List.mem_cons_self).2 (List.cons.inj feed).1)
  | nil =>
      refine ⟨rfl, ?_⟩
      cases rest with
      | nil => cases feed
      | cons next others =>
          obtain ⟨separator, line⟩ := next
          rw [joinLines_cons] at feed
          cases separator with
          | lineFeed => exact ⟨_, rfl, rfl⟩
          | _ => cases feed

/-- A separator ends the line that is being read, unless it is a carriage return that what
follows makes a pair. -/
theorem splitLinesFrom_separator (finished : List (List Char)) (current behind : List Char)
    (separator : Separator)
    (unpaired : separator = .carriageReturn → ∀ others, behind ≠ '\n' :: others) :
    splitLinesFrom finished current (separator.text ++ behind) =
      splitLinesFrom (current.reverse :: finished) [] behind := by
  cases separator with
  | pair => rfl
  | lineFeed => rfl
  | carriageReturn =>
      change splitLinesFrom finished current ('\r' :: behind) = _
      rw [splitLinesFrom]
      exact unpaired rfl

theorem splitLinesFrom_joinLines (finished : List (List Char)) (first : List Char)
    (rest : List (Separator × List Char))
    (onOneLine : ∀ line ∈ first :: rest.map Prod.snd, OnOneLine line)
    (unpaired : Unpaired rest) :
    splitLinesFrom finished [] (joinLines first rest) =
      finished.reverse ++ first :: rest.map Prod.snd := by
  induction rest generalizing finished first with
  | nil =>
      rw [joinLines, splitLinesFrom_append finished [] _ (onOneLine first List.mem_cons_self)]
      simp [splitLinesFrom]
  | cons line others ih =>
      obtain ⟨separator, text⟩ := line
      obtain ⟨here, later⟩ := List.forall_mem_cons.mp onOneLine
      have textOnOneLine := later text List.mem_cons_self
      rw [joinLines_cons, splitLinesFrom_append finished [] _ here, splitLinesFrom_separator,
        ih _ text later unpaired.tail]
      · simp
      · -- The text behind a carriage return begins with a line feed only where the two
        -- would enclose an empty line.
        intro returns behind feed
        obtain ⟨empty, next, inOthers, isFeed⟩ := joinLines_eq_feed textOnOneLine feed
        exact (List.isChain_cons.mp unpaired).1 next inOthers ⟨returns, empty, isFeed⟩

/-- However far a text has been read, the rest of it is made of lines, the first of which
goes on with the line that is being read. -/
theorem exists_joinLines (finished : List (List Char)) (current text : List Char) :
    ∃ first rest, joinLines first rest = text ∧ Unpaired rest ∧
      splitLinesFrom finished current text =
        finished.reverse ++ (current.reverse ++ first) :: rest.map Prod.snd := by
  fun_induction splitLinesFrom finished current text with
  | case1 finished current => exact ⟨[], [], rfl, .nil, by simp⟩
  | case2 finished current text ih =>
      obtain ⟨first, rest, joined, unpaired, split⟩ := ih
      refine ⟨[], (.pair, first) :: rest, ?_, ?_, ?_⟩
      · rw [joinLines_cons, joined]
        rfl
      · exact List.isChain_cons.mpr ⟨fun _next _member paired => (nomatch paired.1), unpaired⟩
      · rw [split]
        simp
  | case3 finished current text notFeed ih =>
      obtain ⟨first, rest, joined, unpaired, split⟩ := ih
      refine ⟨[], (.carriageReturn, first) :: rest, ?_, ?_, ?_⟩
      · rw [joinLines_cons, joined]
        rfl
      · refine List.isChain_cons.mpr ⟨?_, unpaired⟩
        rintro ⟨separator, line⟩ member ⟨_returns, rfl, rfl⟩
        -- Then the text would go on with a line feed.
        obtain ⟨others, rfl⟩ := List.head?_eq_some_iff.mp member
        rw [joinLines_cons] at joined
        exact notFeed _ joined.symm
      · rw [split]
        simp
  | case4 finished current text ih =>
      obtain ⟨first, rest, joined, unpaired, split⟩ := ih
      refine ⟨[], (.lineFeed, first) :: rest, ?_, ?_, ?_⟩
      · rw [joinLines_cons, joined]
        rfl
      · exact List.isChain_cons.mpr ⟨fun _next _member paired => (nomatch paired.1), unpaired⟩
      · rw [split]
        simp
  | case5 finished current char text notPair notReturn notFeed ih =>
      obtain ⟨first, rest, joined, unpaired, split⟩ := ih
      refine ⟨char :: first, rest, ?_, unpaired, ?_⟩
      · rw [← joined, joinLines, List.cons_append]
        rfl
      · rw [split]
        simp

/-! ### Sources with other separators -/

/-- The text with a line feed for each separator. -/
def withLineFeeds : List Char → List Char
  | [] => []
  | '\r' :: '\n' :: rest => '\n' :: withLineFeeds rest
  | '\r' :: rest => '\n' :: withLineFeeds rest
  | char :: rest => char :: withLineFeeds rest

theorem splitLinesFrom_withLineFeeds (finished : List (List Char)) (current text : List Char) :
    splitLinesFrom finished current (withLineFeeds text) =
      splitLinesFrom finished current text := by
  fun_induction splitLinesFrom finished current text with
  | case1 finished current => rfl
  | case2 finished current text ih => exact ih
  | case3 finished current text notFeed ih =>
      rw [withLineFeeds]
      · exact ih
      · exact notFeed
  | case4 finished current text ih => exact ih
  | case5 finished current char text notPair notReturn notFeed ih =>
      rw [withLineFeeds, splitLinesFrom]
      · exact ih
      · intro _others returns _rest
        exact notReturn returns
      · exact notReturn
      · exact notFeed
      · intro _others returns _rest
        exact notReturn returns
      · exact notReturn

/-- Splitting a text into lines undoes joining them, every text comes from joining its
lines, and a source whose separators are all written as line feeds is read in the same
way. -/
theorem line_splitting_inverts_joining :
    (∀ (first : List Char) (rest : List (Separator × List Char)),
      (∀ line ∈ first :: rest.map Prod.snd, OnOneLine line) → Unpaired rest →
        splitLines (joinLines first rest) = first :: rest.map Prod.snd) ∧
    (∀ text : List Char, splitLines text ≠ [] ∧
      (∀ line ∈ splitLines text, OnOneLine line) ∧
      ∃ first rest, first :: rest.map Prod.snd = splitLines text ∧ Unpaired rest ∧
        joinLines first rest = text) ∧
    (∀ (mode : CommentMode) (source : String),
      Program.ofSource mode (.ofList (withLineFeeds source.toList)) =
          .ofSource mode source ∧
        (Program.ofSource mode (.ofList (withLineFeeds source.toList))).lexicalErrors =
          (Program.ofSource mode source).lexicalErrors) := by
  refine ⟨?_, ?_, ?_⟩
  · intro first rest onOneLine unpaired
    exact splitLinesFrom_joinLines [] first rest onOneLine unpaired
  · intro text
    obtain ⟨first, rest, joined, unpaired, split⟩ := exists_joinLines [] [] text
    have lines : splitLines text = first :: rest.map Prod.snd := split
    refine ⟨?_, onOneLine_of_mem_splitLines text, first, rest, lines.symm, unpaired, joined⟩
    rw [lines]
    exact List.cons_ne_nil _ _
  · intro mode source
    have same : Program.ofSource mode (.ofList (withLineFeeds source.toList)) =
        .ofSource mode source := by
      unfold Program.ofSource splitLines
      rw [String.toList_ofList, splitLinesFrom_withLineFeeds]
    rw [same]
    exact ⟨rfl, rfl⟩

/-- Empty lines at both ends and in between, with every separator next to every other that
it may stand next to. -/
theorem line_splitting_inverts_joining_mixed :
    joinLines [] [(.lineFeed, []), (.carriageReturn, ['é']), (.lineFeed, []), (.pair, []),
        (.carriageReturn, []), (.carriageReturn, [])] =
      "\n\ré\n\r\n\r\r".toList ∧
    splitLines (joinLines [] [(.lineFeed, []), (.carriageReturn, ['é']), (.lineFeed, []),
        (.pair, []), (.carriageReturn, []), (.carriageReturn, [])]) =
      [[], [], ['é'], [], [], [], []] :=
  ⟨by decide, line_splitting_inverts_joining.1 _ _ (by decide) (by decide)⟩

end PinMachine
