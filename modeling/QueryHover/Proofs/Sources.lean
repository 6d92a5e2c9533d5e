import Mathlib.Tactic.SplitIfs
import QueryHover.Proofs.Seam

/-
  Tokens and the characters they are read from.

  A token other than a string says what stands in the text:
  a name or a number its own characters, a punctuator the
  characters of its kind. Conversely, a name or a punctuator
  at the front of a text is scanned as one token, whatever
  comes behind it.

  Main declarations:
    * `Text.IsName`
    * `Token.sourceIn`
    * `Token.ReadIn`
    * `Scanner.step_readIn`
    * `TokenStream.ofText_readIn`
    * `Text.words_name`
    * `Text.words_punctuator`
-/

namespace QueryHover

------------------------------------------------------------
-- Tokens and Their Characters
------------------------------------------------------------

/- A letter or underscore, then letters, digits and more. -/
def Text.IsName :
    List Char → Prop
  | [] => False
  | c :: cs =>
      Scanner.isNameStart c ∧ ∀ d ∈ cs, Scanner.isNamePart d

instance :
    (cs : List Char) → Decidable (Text.IsName cs)
  | [] => .isFalse id
  | c :: cs =>
      decidable_of_iff
        (Scanner.isNameStart c ∧ cs.all Scanner.isNamePart)
        (and_congr_right fun _ => List.all_eq_true)

/- A name goes on with any character of a name. -/
theorem Text.IsName.concat
    {cs : List Char}
    {c : Char}
    (h : Text.IsName cs)
    (hPart : Scanner.isNamePart c) :
    Text.IsName (cs ++ [c]) := by
  cases cs with
  | nil => cases h
  | cons d cs =>
      refine ⟨h.1, List.forall_mem_append.mpr ⟨h.2, ?_⟩⟩
      rwa [List.forall_mem_singleton]

namespace Token

/- The characters of the text that a token covers. -/
def sourceIn
    (text : List Char)
    (t : Token) : List Char :=
  (text.drop t.start).take (t.stop - t.start)

/-
  A token of a text that says what stands there. What a
  string says may be written in many ways.
-/
def ReadIn
    (text : List Char)
    (t : Token) : Prop :=
  t.stop ≤ text.length ∧
    match t.kind with
    | .name =>
        Text.IsName t.value.toList ∧
          t.sourceIn text = t.value.toList
    | .int | .float | .comment =>
        t.sourceIn text = t.value.toList
    | .string | .blockString => True
    | kind => t.sourceIn text = kind.label.toList

/- What follows in the text does not matter. -/
theorem sourceIn_append
    {text : List Char}
    {t : Token}
    (h : t.stop ≤ text.length)
    (rest : List Char) :
    t.sourceIn (text ++ rest) = t.sourceIn text := by
  unfold sourceIn
  rw [List.drop_append, List.take_append_of_le_length]
  rw [List.length_drop]
  omega

theorem ReadIn.append
    {text : List Char}
    {t : Token}
    (h : t.ReadIn text)
    (rest : List Char) :
    t.ReadIn (text ++ rest) := by
  unfold ReadIn
  rw [sourceIn_append h.1, List.length_append]
  exact ⟨Nat.le_add_right_of_le h.1, h.2⟩

/- A token up to the end of the text covers all from there. -/
theorem sourceIn_of_drop
    {text cs : List Char}
    {t : Token}
    (hDrop : text.drop t.start = cs)
    (hStop : t.stop = text.length) :
    t.sourceIn text = cs := by
  unfold sourceIn
  rw [hDrop]
  apply List.take_of_length_le
  apply Nat.le_of_eq
  rw [← hDrop, List.length_drop, hStop]

end Token

------------------------------------------------------------
-- Single Steps
------------------------------------------------------------

namespace Scanner

/- What a mode remembers is what stands in the text. -/
def Mode.ReadIn
    (text : List Char) :
    Mode → Prop
  | .name start read =>
      text.drop start = read.reverse ∧
        Text.IsName read.reverse
  | .number start read _ | .comment start read =>
      text.drop start = read.reverse
  | .dots start count =>
      text.drop start = List.replicate count '.' ∧
        1 ≤ count ∧ count ≤ 2
  | _ => True

/- A step to the end of a text, read as it stands there. -/
abbrev Step.ReadIn
    (text : List Char) :
    Step → Prop :=
  Step.Keeps (Mode.ReadIn text) (Token.ReadIn text)
    text.length

variable {s : Scanner}
variable {front : List Char}
variable {c : Char}

/- A punctuator stands for its character. -/
theorem readIn_punctuator
    {kind : Token.Kind}
    {text : List Char}
    {t : Token}
    (h : punctuator? c = some kind)
    (hKind : t.kind = kind)
    (hStop : t.stop ≤ text.length)
    (hSource : t.sourceIn text = [c]) :
    t.ReadIn text := by
  refine ⟨hStop, ?_⟩
  rw [hKind]
  unfold punctuator? at h
  split at h
  all_goals
    first
      | (obtain rfl := Option.some.inj h; exact hSource)
      | cases h

theorem drop_offset
    (hOffset : s.offset = front.length) :
    (front ++ [c]).drop s.offset = [c] := by
  rw [hOffset, List.drop_left]

theorem stepBlank_readIn
    (hOffset : s.offset = front.length) :
    (s.stepBlank c).ReadIn (front ++ [c]) := by
  have hDrop := drop_offset (c := c) hOffset
  have hEnd : s.offset + 1 = (front ++ [c]).length :=
    next_offset hOffset
  unfold stepBlank
  refine iteInduction (fun _ => goOn_keeps hEnd trivial)
    fun _ => ?_
  refine iteInduction (fun _ => newLine_keeps hEnd trivial)
    fun _ => ?_
  refine iteInduction (fun _ => newLine_keeps hEnd trivial)
    fun _ => ?_
  refine iteInduction (fun _ => goOn_keeps hEnd hDrop)
    fun _ => ?_
  refine iteInduction (fun hName => goOn_keeps hEnd
    ⟨hDrop, hName, List.forall_mem_nil _⟩) fun _ => ?_
  refine iteInduction (fun _ => goOn_keeps hEnd hDrop)
    fun _ => ?_
  refine iteInduction (fun _ => goOn_keeps hEnd hDrop)
    fun _ => ?_
  refine iteInduction (fun _ => goOn_keeps hEnd hDrop)
    fun _ => ?_
  refine iteInduction ?_ fun _ => ?_
  · rintro rfl
    exact goOn_keeps hEnd ⟨hDrop, by decide⟩
  refine iteInduction (fun _ => goOn_keeps hEnd trivial)
    fun _ => ?_
  cases hKind : punctuator? c with
  | none => exact stopAt_keeps _ _
  | some kind =>
      refine emit_keeps hEnd trivial ?_
      exact readIn_punctuator hKind rfl (Nat.le_of_eq hEnd)
        (Token.sourceIn_of_drop hDrop hEnd)

/- A token from what a mode remembers, ended by a character. -/
theorem readIn_token
    {start : Nat}
    {cs : List Char}
    {t : Token}
    (hDrop : front.drop start = cs)
    (hStart : t.start = start)
    (hStop : t.stop = front.length)
    (rest : List Char) :
    t.stop ≤ (front ++ rest).length ∧
      t.sourceIn (front ++ rest) = cs := by
  subst hStart
  have hEnd := Nat.le_of_eq hStop
  rw [Token.sourceIn_append hEnd,
    Token.sourceIn_of_drop hDrop hStop, List.length_append]
  exact ⟨Nat.le_add_right_of_le hEnd, rfl⟩

theorem readIn_word
    {start : Nat}
    {read : List Char}
    (hOffset : s.offset = front.length)
    (hRead :
      front.drop start = read.reverse ∧
        Text.IsName read.reverse)
    (rest : List Char) :
    (s.token .name read.reverse start s.offset).ReadIn
      (front ++ rest) := by
  have hToken := readIn_token hRead.1
    (t := s.token .name read.reverse start s.offset)
    rfl hOffset rest
  refine ⟨hToken.1, ?_⟩
  change Text.IsName (String.ofList read.reverse).toList ∧
    _ = (String.ofList read.reverse).toList
  rw [String.toList_ofList]
  exact ⟨hRead.2, hToken.2⟩

theorem readIn_comment
    {start : Nat}
    {read : List Char}
    (hOffset : s.offset = front.length)
    (hRead : front.drop start = read.reverse)
    (rest : List Char) :
    (s.token .comment read.reverse start s.offset).ReadIn
      (front ++ rest) := by
  have hToken := readIn_token hRead
    (t := s.token .comment read.reverse start s.offset)
    rfl hOffset rest
  refine ⟨hToken.1, ?_⟩
  change _ = (String.ofList read.reverse).toList
  rw [String.toList_ofList]
  exact hToken.2

theorem readIn_number
    {start : Nat}
    {read : List Char}
    {part : NumberPart}
    {kind : Token.Kind}
    (hOffset : s.offset = front.length)
    (hRead : front.drop start = read.reverse)
    (hKind : part.kind? = some kind)
    (rest : List Char) :
    (s.token kind read.reverse start s.offset).ReadIn
      (front ++ rest) := by
  have hToken := readIn_token hRead
    (t := s.token kind read.reverse start s.offset)
    rfl hOffset rest
  have hSource :
      (s.token kind read.reverse start s.offset).sourceIn
          (front ++ rest) =
        (String.ofList read.reverse).toList := by
    rw [String.toList_ofList]
    exact hToken.2
  refine ⟨hToken.1, ?_⟩
  cases part
  all_goals
    first
      | (obtain rfl := Option.some.inj hKind; exact hSource)
      | exact absurd hKind (by simp [NumberPart.kind?])

/- One more character of what is being read. -/
theorem drop_concat
    {start : Nat}
    {cs : List Char}
    (hStart : start < front.length)
    (h : front.drop start = cs) :
    (front ++ [c]).drop start = cs ++ [c] := by
  rw [List.drop_append_of_le_length (Nat.le_of_lt hStart), h]

theorem stepNumber_readIn
    {start : Nat}
    {read : List Char}
    (hOffset : s.offset = front.length)
    (hStart : start < front.length)
    (hRead : front.drop start = read.reverse)
    (part : NumberPart) :
    (s.stepNumber start read part c).ReadIn
      (front ++ [c]) := by
  have hEnd : s.offset + 1 = (front ++ [c]).length :=
    next_offset hOffset
  unfold stepNumber
  cases part.next? c with
  | some after =>
      refine goOn_keeps hEnd ?_
      change _ = (c :: read).reverse
      rw [List.reverse_cons]
      exact drop_concat hStart hRead
  | none =>
      dsimp only
      split_ifs
      · exact stopAt_keeps _ _
      · cases hKind : part.kind? with
        | none => exact stopAt_keeps _ _
        | some kind =>
            exact (stepBlank_readIn hOffset).after
              (readIn_number hOffset hRead hKind _)

theorem stepString_readIn
    (hOffset : s.offset = front.length)
    (start : Nat)
    (read : List Char) :
    (s.stepString start read c).ReadIn (front ++ [c]) := by
  have hEnd : s.offset + 1 = (front ++ [c]).length :=
    next_offset hOffset
  unfold stepString
  split_ifs
  · exact emit_keeps hEnd trivial
      ⟨Nat.le_of_eq hEnd, trivial⟩
  · exact goOn_keeps hEnd trivial
  · exact stopAt_keeps _ _
  · exact goOn_keeps hEnd trivial

theorem stepBlock_readIn
    (hOffset : s.offset = front.length)
    (start : Nat)
    (read : List Char) :
    (s.stepBlock start read c).ReadIn (front ++ [c]) := by
  have hEnd : s.offset + 1 = (front ++ [c]).length :=
    next_offset hOffset
  unfold stepBlock
  split_ifs
  · exact goOn_keeps hEnd trivial
  · exact goOn_keeps hEnd trivial
  · exact newLine_keeps hEnd trivial
  · exact newLine_keeps hEnd trivial
  · exact stopAt_keeps _ _
  · exact goOn_keeps hEnd trivial

/- Strings may say anything, but end inside the text. -/
theorem readIn_string
    {t : Token}
    (hKind : t.kind = .string ∨ t.kind = .blockString)
    (hStop : t.stop ≤ front.length)
    (rest : List Char) :
    t.ReadIn (front ++ rest) := by
  apply Token.ReadIn.append
  refine ⟨hStop, ?_⟩
  rcases hKind with hKind | hKind
  · rw [hKind]
    trivial
  · rw [hKind]
    trivial

/- Every step reads what stands in the text. -/
theorem step_readIn
    (hOffset : s.offset = front.length)
    (hValid : s.mode.ValidAt s.offset)
    (hMode : s.mode.ReadIn front)
    (c : Char) :
    (s.step c).ReadIn (front ++ [c]) := by
  have hEnd : s.offset + 1 = (front ++ [c]).length :=
    next_offset hOffset
  unfold step
  cases hCase : s.mode with
  | blank => exact stepBlank_readIn hOffset
  | blankAfterReturn =>
      dsimp only
      split_ifs
      · exact goOn_keeps hEnd trivial
      · exact stepBlank_readIn hOffset
  | comment start read =>
      rw [hCase] at hValid hMode
      have hStart : start < front.length := hOffset ▸ hValid
      dsimp only
      split_ifs
      · exact (stepBlank_readIn hOffset).after
          (readIn_comment hOffset hMode _)
      · refine goOn_keeps hEnd ?_
        change _ = (c :: read).reverse
        rw [List.reverse_cons]
        exact drop_concat hStart hMode
  | name start read =>
      rw [hCase] at hValid hMode
      have hStart : start < front.length := hOffset ▸ hValid.1
      dsimp only
      split_ifs with hPart
      · refine goOn_keeps hEnd ?_
        change _ = (c :: read).reverse ∧
          Text.IsName (c :: read).reverse
        rw [List.reverse_cons]
        exact ⟨drop_concat hStart hMode.1,
          hMode.2.concat hPart⟩
      · exact (stepBlank_readIn hOffset).after
          (readIn_word hOffset hMode _)
  | number start read part =>
      rw [hCase] at hValid hMode
      exact stepNumber_readIn hOffset (hOffset ▸ hValid.1)
        hMode part
  | dots start count =>
      rw [hCase] at hValid hMode
      have hStart : start < front.length := hOffset ▸ hValid
      rcases hMode with ⟨hRead, hOne, hTwo⟩
      dsimp only
      split_ifs with hDot hFirst
      · subst hDot hFirst
        exact goOn_keeps hEnd
          ⟨drop_concat hStart hRead, by decide⟩
      · have hCount : count = 2 := by omega
        subst hDot hCount
        have hDots :
            (front ++ ['.']).drop start = ['.', '.', '.'] :=
          drop_concat hStart hRead
        have hLabel :
            ['.', '.', '.'] =
              Token.Kind.spread.label.toList := by
          decide
        exact emit_keeps hEnd trivial ⟨Nat.le_of_eq hEnd,
          (Token.sourceIn_of_drop hDots hEnd).trans hLabel⟩
      · exact stopAt_keeps _ _
  | quotes start count =>
      dsimp only
      split_ifs
      · exact goOn_keeps hEnd trivial
      · exact stepString_readIn hOffset start []
      · exact goOn_keeps hEnd trivial
      · exact (stepBlank_readIn hOffset).after
          (readIn_string (.inl rfl) (Nat.le_of_eq hOffset) _)
  | string start read escape =>
      exact stepString_readIn hOffset start read
  | stringEscape start read =>
      dsimp only
      split_ifs
      · exact goOn_keeps hEnd trivial
      · cases unescape? c with
        | some d => exact goOn_keeps hEnd trivial
        | none => exact stopAt_keeps _ _
  | stringCode start read escape digits =>
      dsimp only
      split_ifs
      · exact stopAt_keeps _ _
      · exact goOn_keeps hEnd trivial
      · exact goOn_keeps hEnd trivial
  | block start read =>
      exact stepBlock_readIn hOffset start read
  | blockAfterReturn start read =>
      dsimp only
      split_ifs
      · exact ⟨List.forall_mem_nil _, trivial, hEnd⟩
      · exact stepBlock_readIn hOffset start read
  | blockEscape start read quotes =>
      dsimp only
      split_ifs
      · exact goOn_keeps hEnd trivial
      · exact goOn_keeps hEnd trivial
      · exact stepBlock_readIn hOffset start _
  | blockQuotes start read quotes =>
      rw [hCase] at hValid
      have hQuotes : start + quotes < s.offset := hValid
      dsimp only
      split_ifs
      · exact goOn_keeps hEnd trivial
      · exact stepBlock_readIn hOffset start _
      · refine (stepBlank_readIn hOffset).after
          (readIn_string (.inr rfl) ?_ _)
        change s.offset - quotes + 3 ≤ front.length
        omega

------------------------------------------------------------
-- Whole Texts
------------------------------------------------------------

theorem finish_readIn
    (hOffset : s.offset = front.length)
    (hValid : s.mode.ValidAt s.offset)
    (hMode : s.mode.ReadIn front) :
    ∀ t ∈ s.finish.tokens, t.ReadIn front := by
  have hAll : front = front ++ [] := (List.append_nil _).symm
  unfold finish
  cases hCase : s.mode with
  | comment start read =>
      rw [hCase] at hMode
      refine List.forall_mem_singleton.mpr ?_
      rw [hAll]
      exact readIn_comment hOffset hMode []
  | name start read =>
      rw [hCase] at hMode
      refine List.forall_mem_singleton.mpr ?_
      rw [hAll]
      exact readIn_word hOffset hMode []
  | number start read part =>
      rw [hCase] at hMode
      dsimp only
      cases hKind : part.kind? with
      | none => exact List.forall_mem_nil _
      | some kind =>
          refine List.forall_mem_singleton.mpr ?_
          rw [hAll]
          exact readIn_number hOffset hMode hKind []
  | quotes start count =>
      dsimp only
      split_ifs
      · exact List.forall_mem_nil _
      · exact List.forall_mem_singleton.mpr
          ⟨Nat.le_of_eq hOffset, trivial⟩
  | blockQuotes start read quotes =>
      rw [hCase] at hValid
      have hQuotes : start + quotes < s.offset := hValid
      dsimp only
      split_ifs
      · exact List.forall_mem_nil _
      · refine List.forall_mem_singleton.mpr ⟨?_, trivial⟩
        change s.offset - quotes + 3 ≤ front.length
        omega
  | string start read escape =>
      cases escape with
      | none => exact List.forall_mem_nil _
      | some code => exact List.forall_mem_nil _
  | _ => exact List.forall_mem_nil _

end Scanner

/- The tokens of a text say what stands there. -/
theorem TokenStream.ofText_readIn
    (file : String)
    (text : List Char)
    {t : Token}
    (ht : t ∈ (ofText file text).ahead) :
    t.ReadIn text := by
  refine ofText_keeps (P := Scanner.Mode.ReadIn)
    (Q := Token.ReadIn) ?_ ?_ ?_ trivial file text ht
  · intro text cs t h
    exact h.append cs
  · intro s front c hOffset hValid hMode
    exact Scanner.step_readIn hOffset hValid hMode c
  · intro s front hOffset hValid hMode
    exact Scanner.finish_readIn hOffset hValid hMode

------------------------------------------------------------
-- Names and Punctuators at the Front of a Text
------------------------------------------------------------

/- The words of a scan, and the kind of what follows them. -/
def Scanner.Scan.words
    (scan : Scanner.Scan) : List Word × Token.Kind :=
  (scan.tokens.map Token.word, scan.last.kind)

namespace Text

/- The words of a text, and the kind of what follows them. -/
def words
    (text : List Char) : List Word × Token.Kind :=
  (Scanner.run {} text).words

/- Some more words in front. -/
def before
    (front : List Word)
    (words : List Word × Token.Kind) :
    List Word × Token.Kind :=
  (front ++ words.1, words.2)

theorem before_append
    (front back : List Word)
    (words : List Word × Token.Kind) :
    before (front ++ back) words =
      before front (before back words) := by
  unfold before
  rw [List.append_assoc]

end Text

theorem Token.map_word_moved
    {d : Nat}
    {ts us : List Token}
    (h : List.Forall₂ (Token.Moved d) ts us) :
    us.map Token.word = ts.map Token.word := by
  induction h with
  | nil => rfl
  | cons hToken _ ih =>
      rw [List.map_cons, List.map_cons, hToken.word, ih]

namespace Scanner

variable {s : Scanner}
variable {c : Char}

/- Between tokens it does not matter what has been read. -/
theorem words_of_blank
    (h : s.mode = .blank)
    (cs : List Char) :
    (run s cs).words = Text.words cs := by
  have hMoved : Scanner.Moved s.offset {} s :=
    ⟨(Nat.zero_add _).symm, h⟩
  have hBlank : Mode.ValidAt 0 .blank := trivial
  have hRun := run_moved hMoved hBlank cs
  exact Prod.ext (Token.map_word_moved hRun.tokens)
    hRun.last.kind

/- A token that ends where the next character is read. -/
theorem run_after
    {s' : Scanner}
    {t : Token}
    (h : s.step c = (s'.step c).after t)
    (cs : List Char) :
    (run s (c :: cs)).words =
      Text.before [t.word] (run s' (c :: cs)).words := by
  unfold run
  rw [h]
  cases s'.step c with
  | next tokens s'' => rfl
  | stop tokens last fault => rfl

/- A name is read up to its last character. -/
theorem words_name_read
    {start : Nat}
    {read : List Char}
    (hMode : s.mode = .name start read)
    {cs : List Char}
    (hParts : ∀ d ∈ cs, isNamePart d)
    {rest : List Char}
    (hRest : ∀ d ∈ rest.head?, ¬ isNamePart d) :
    (run s (cs ++ rest)).words =
      Text.before [(.name, String.ofList (read.reverse ++ cs))]
        (Text.words rest) := by
  induction cs generalizing s read with
  | nil =>
      rw [List.nil_append, List.append_nil]
      cases rest with
      | nil =>
          unfold run finish
          rw [hMode]
          rfl
      | cons d rest =>
          have hEnd := hRest d rfl
          have hStep :
              s.step d =
                (({ s with mode := .blank } : Scanner).step
                  d).after
                  (s.token .name read.reverse start
                    s.offset) := by
            unfold step
            rw [hMode]
            dsimp only
            rw [if_neg hEnd]
            rfl
          rw [run_after hStep, words_of_blank rfl]
          rfl
  | cons d cs ih =>
      have hPart := hParts d List.mem_cons_self
      have hStep :
          s.step d = s.goOn (.name start (d :: read)) := by
        unfold step
        rw [hMode]
        dsimp only
        rw [if_pos hPart]
      rw [List.cons_append, run_of_next hStep]
      have hNext := ih
        (s := { s with
          offset := s.offset + 1
          mode := .name start (d :: read) })
        rfl fun e he => hParts e (List.mem_cons_of_mem d he)
      rw [List.reverse_cons, List.append_assoc] at hNext
      exact hNext

/- Nothing else starts like a name. -/
theorem stepBlank_name
    (h : isNameStart c) :
    s.stepBlank c = s.goOn (.name s.offset [c]) := by
  have hIgnored : ¬ isIgnored c := by
    intro hIgnored
    simp only [isIgnored, Bool.or_eq_true,
      decide_eq_true_eq] at hIgnored
    rcases hIgnored with ((rfl | rfl) | rfl) | rfl
    all_goals exact absurd h (by decide)
  have hOther {d : Char} (hd : ¬ isNameStart d) : c ≠ d := by
    rintro rfl
    exact hd h
  unfold stepBlank
  rw [if_neg hIgnored, if_neg (hOther (by decide)),
    if_neg (hOther (by decide)), if_neg (hOther (by decide)),
    if_pos h]

theorem stepBlank_punctuator
    {kind : Token.Kind}
    (h : punctuator? c = some kind) :
    s.stepBlank c =
      s.emit (s.token kind [] s.offset (s.offset + 1)) := by
  unfold punctuator? at h
  split at h
  all_goals
    first
      | (obtain rfl := Option.some.inj h; rfl)
      | cases h

end Scanner

namespace Text

/- A name at the front, where no character continues it. -/
theorem words_name
    {cs : List Char}
    (hName : IsName cs)
    {rest : List Char}
    (hRest : ∀ d ∈ rest.head?, ¬ Scanner.isNamePart d) :
    words (cs ++ rest) =
      before [(.name, String.ofList cs)] (words rest) := by
  cases cs with
  | nil => cases hName
  | cons c cs =>
      have hStep :
          ({} : Scanner).step c =
            ({} : Scanner).goOn (.name 0 [c]) :=
        Scanner.stepBlank_name hName.1
      unfold words
      rw [List.cons_append, Scanner.run_of_next hStep]
      exact Scanner.words_name_read
        (s := { offset := 1, mode := .name 0 [c] })
        rfl hName.2 hRest

/- A punctuator at the front. -/
theorem words_punctuator
    {c : Char}
    {kind : Token.Kind}
    (h : Scanner.punctuator? c = some kind)
    (rest : List Char) :
    words (c :: rest) = before [(kind, "")] (words rest) := by
  have hStep :
      ({} : Scanner).step c =
        ({} : Scanner).emit
          (({} : Scanner).token kind [] 0 1) :=
    Scanner.stepBlank_punctuator h
  have hNext := Scanner.words_of_blank (s := { offset := 1 })
    rfl rest
  rw [← hNext]
  unfold words
  rw [Scanner.run_of_next hStep]
  rfl

end Text

end QueryHover
