import QueryHover.Command.Run
import QueryHover.Proofs.JsonReading
import QueryHover.Proofs.Ranges

/-
  The formats of an answer agree.

  A hover resolves its position before it looks at the
  format, so the error and what is logged are the same in
  all formats. What is written as JSON reads back as the
  content and the range of the answer.

  Main declarations:
    * `Json.at?`
    * `Answer.legible_toJson`
    * `Command.showAnswer_eq`
    * `Command.hover_formats_agree`
-/

namespace QueryHover

------------------------------------------------------------
-- Answers as JSON
------------------------------------------------------------

namespace Json

/- The member of an object with a key. -/
def member?
    (key : String) :
    Json → Option Json
  | object members =>
      (members.find? fun member => member.1 = key).map
        Prod.snd
  | _ => none

/- The value that a path of keys leads to. -/
def at? :
    List String → Json → Option Json
  | [], value => some value
  | key :: path, value =>
      (value.member? key).bind (at? path)

end Json

theorem Position.legible_toJson
    (p : Position) :
    p.toJson.Legible :=
  ⟨Json.isNumber_int p.line, Json.isNumber_int p.character,
    trivial⟩

namespace Answer

theorem legible_toJson
    (a : Answer) :
    a.toJson.Legible := by
  unfold toJson
  cases a.range? with
  | none => trivial
  | some r =>
      exact ⟨⟨trivial, trivial, trivial⟩,
        ⟨r.start.legible_toJson, r.stop.legible_toJson,
          trivial⟩,
        trivial⟩

/- The answer for a document has a range if it has content. -/
theorem exists_range?
    {schema : Option Schema}
    {text : List Char}
    {root : Node}
    {offset : Nat}
    (h : Document.parse text = .ok root)
    (hContent : (ofTree schema text root offset).content ≠ "") :
    ∃ r, (ofTree schema text root offset).range? = some r := by
  rcases exists_above h hContent with ⟨leaf, hLeaf, _⟩
  unfold range?
  rw [target?_of_content hContent hLeaf]
  exact ⟨_, rfl⟩

theorem toJson_eq_null_iff
    {schema : Option Schema}
    {text : List Char}
    {root : Node}
    {offset : Nat}
    (h : Document.parse text = .ok root) :
    (ofTree schema text root offset).toJson = .null ↔
      (ofTree schema text root offset).content = "" := by
  constructor
  · intro hNull
    by_contra hContent
    rcases exists_range? h hContent with ⟨r, hRange⟩
    unfold toJson at hNull
    rw [hRange] at hNull
    cases hNull
  · intro hContent
    unfold toJson
    rw [range?_eq_none hContent]

/- Where the parts of an answer are in its document. -/
theorem toJson_at
    {a : Answer}
    {r : Range}
    (h : a.range? = some r) :
    a.toJson.at? ["contents", "value"] =
        some (.string a.content) ∧
      a.toJson.at? ["range", "start", "line"] =
        some (.int r.start.line) ∧
      a.toJson.at? ["range", "start", "character"] =
        some (.int r.start.character) ∧
      a.toJson.at? ["range", "end", "line"] =
        some (.int r.stop.line) ∧
      a.toJson.at? ["range", "end", "character"] =
        some (.int r.stop.character) := by
  unfold toJson
  rw [h]
  exact ⟨rfl, rfl, rfl, rfl, rfl⟩

end Answer

------------------------------------------------------------
-- What an Answer Writes
------------------------------------------------------------

namespace Command

/- An answer in a format. -/
def answerText
    (color : Bool)
    (source : String)
    (a : Answer) :
    Format → String
  | .json => a.toJson.render
  | .pretty => a.pretty color source
  | .text => a.content

/- An answer can be written in every format. -/
theorem write_answer
    (color : Bool)
    (source : String)
    (a : Answer)
    (format : Format) :
    write (Answer.renderer color source) [a] format =
      .ok (answerText color source a format ++ "\n") := by
  cases format
  all_goals rfl

/-
  The outcome of a hover with an answer. Only JSON is written
  also for an answer without content.
-/
def answered
    (color : Bool)
    (source : String)
    (p : Position)
    (a : Answer)
    (log : String)
    (format : Format) : Outcome :=
  { stdout :=
      if a.content = "" ∧ format ≠ .json then
        ""
      else
        answerText color source a format ++ "\n"
    stderr := log
    error :=
      if a.content = "" then
        some (.nothingFound p)
      else
        none }

theorem showAnswer_eq
    (w : Surroundings)
    (schema : Schema)
    (source : String)
    (p : Position)
    (a : Answer) :
    ∃ hint, ∀ format,
      showAnswer w format schema source p a =
        answered w.color source p a hint format := by
  refine ⟨(showAnswer w .json schema source p a).stderr, ?_⟩
  intro format
  unfold showAnswer answered
  rw [write_answer, write_answer]
  by_cases hContent : a.content = ""
  · cases format
    all_goals simp [hContent]
  · simp [hContent]

section

variable {color : Bool}
variable {source log : String}
variable {p : Position}
variable {a : Answer}

theorem stdout_text :
    (answered color source p a log .text).stdout =
      if a.content = "" then "" else a.content ++ "\n" := by
  unfold answered
  simp [answerText]

theorem stdout_pretty :
    (answered color source p a log .pretty).stdout = "" ↔
      a.content = "" := by
  unfold answered
  by_cases hContent : a.content = ""
  · simp [hContent]
  · simp [hContent, String.append_eq_empty_iff]

/- The JSON document is always written and reads back. -/
theorem stdout_json :
    Json.parse?
        (answered color source p a log .json).stdout.toList =
      some a.toJson := by
  unfold answered
  rw [if_neg (fun h => h.2 rfl)]
  exact Json.parse?_render a.legible_toJson

theorem error_eq_none_iff
    {format : Format} :
    (answered color source p a log format).error = none ↔
      a.content ≠ "" := by
  unfold answered
  by_cases hContent : a.content = ""
  · simp [hContent]
  · simp [hContent]

end

section

variable {w : Surroundings}
variable {o : Options}
variable {schema : Schema}
variable {source text : String}
variable {p : Position}

/- A refused document is reported, whatever the format is. -/
theorem hoverText_refused
    {e : SyntaxError}
    (h : Document.parse text.toList = .error e) :
    ∃ log, ∀ format,
      hoverText w o format schema source text p =
        { stderr := log, error := some .refusedQuery } := by
  have hAnswer :
      Answer.resolve (some schema) text.toList p =
        .error e := by
    unfold Answer.resolve
    rw [h]
    rfl
  apply Exists.intro
  intro format
  unfold hoverText
  rw [hAnswer]

/- The answer does not depend on the format. -/
theorem hoverText_resolved
    {a : Answer}
    (h :
      Answer.resolve (some schema) text.toList p = .ok a) :
    ∃ log, ∀ format,
      hoverText w o format schema source text p =
        (showAnswer w format schema source p a).logged log := by
  apply Exists.intro
  intro format
  unfold hoverText
  rw [h]

section

variable {arguments : List String}
variable {path : String}
variable (hLine : 0 ≤ o.line)
variable (hCharacter : 0 ≤ o.character)
variable (hSchema : readSchema w o = .ok (schema, path))
variable (hQuery : readQuery w arguments = .ok (source, text))

include hLine hCharacter hSchema hQuery

/- What is logged first does not depend on the format. -/
theorem runHover_eq :
    ∃ log, ∀ format,
      runHover w o format arguments =
        (hoverText w o format schema source text
          ⟨o.line, o.character⟩).logged log := by
  have hPosition :
      position o = .ok ⟨o.line, o.character⟩ :=
    if_pos ⟨hLine, hCharacter⟩
  apply Exists.intro
  intro format
  unfold runHover
  rw [hPosition, hSchema, hQuery]

/- Nothing is written for a document that is refused. -/
theorem runHover_refused
    {e : SyntaxError}
    (h : Document.parse text.toList = .error e) :
    ∃ log, ∀ format,
      runHover w o format arguments =
        { stderr := log, error := some .refusedQuery } := by
  rcases runHover_eq hLine hCharacter hSchema hQuery with
    ⟨log, hRun⟩
  rcases hoverText_refused h with ⟨log', hText⟩
  refine ⟨log ++ log', ?_⟩
  intro format
  rw [hRun, hText]
  rfl

/- Only what is written depends on the format. -/
theorem runHover_answered
    {a : Answer}
    (h :
      Answer.resolve (some schema) text.toList
        ⟨o.line, o.character⟩ = .ok a) :
    ∃ log, ∀ format,
      runHover w o format arguments =
        answered w.color source ⟨o.line, o.character⟩ a log
          format := by
  rcases runHover_eq hLine hCharacter hSchema hQuery with
    ⟨log, hRun⟩
  rcases hoverText_resolved h with ⟨log', hText⟩
  rcases showAnswer_eq w schema source
      ⟨o.line, o.character⟩ a with
    ⟨hint, hShown⟩
  refine ⟨log ++ (log' ++ hint), ?_⟩
  intro format
  rw [hRun, hText, hShown]
  rfl

end

end

/-
  The formats of a hover agree. They fail with the same error
  and write the same to standard error. For a document that
  is refused none of them writes anything else. Otherwise
  they succeed exactly if there is content: text is the
  content, the display is empty only without content, and
  the JSON document reads back as null without content, else
  as the content and the range of the answer.
-/
theorem hover_formats_agree
    {w : Surroundings}
    {o : Options}
    {arguments : List String}
    {schema : Schema}
    {path source text : String}
    (hLine : 0 ≤ o.line)
    (hCharacter : 0 ≤ o.character)
    (hSchema : readSchema w o = .ok (schema, path))
    (hQuery : readQuery w arguments = .ok (source, text)) :
    let p : Position := ⟨o.line, o.character⟩
    let hover := fun format => runHover w o format arguments
    (∀ f g,
        (hover f).error = (hover g).error ∧
          (hover f).stderr = (hover g).stderr) ∧
      ((∃ e, Document.parse text.toList = .error e) ∧
          (∀ f,
            (hover f).error = some .refusedQuery ∧
              (hover f).stdout = "") ∨
        ∃ a,
          Answer.resolve (some schema) text.toList p = .ok a ∧
            (∀ f, (hover f).error = none ↔ a.content ≠ "") ∧
            (a.content = "" → ∀ f, ∃ e,
              (hover f).error = some e ∧
                e = .nothingFound p ∧
                e.message =
                  "no hover information" ++ " at " ++
                    toString o.line ++ ":" ++
                    toString o.character) ∧
            (hover .text).stdout =
              (if a.content = "" then
                ""
              else
                a.content ++ "\n") ∧
            ((hover .pretty).stdout = "" ↔ a.content = "") ∧
            ∃ document,
              Json.parse? (hover .json).stdout.toList =
                  some document ∧
                (document = .null ↔ a.content = "") ∧
                (a.content ≠ "" → ∃ r,
                  a.range? = some r ∧
                    document.at? ["contents", "value"] =
                      some (.string a.content) ∧
                    document.at? ["range", "start", "line"] =
                      some (.int r.start.line) ∧
                    document.at?
                        ["range", "start", "character"] =
                      some (.int r.start.character) ∧
                    document.at? ["range", "end", "line"] =
                      some (.int r.stop.line) ∧
                    document.at?
                        ["range", "end", "character"] =
                      some (.int r.stop.character))) := by
  intro p hover
  cases hParse : Document.parse text.toList with
  | error e =>
      rcases runHover_refused hLine hCharacter hSchema hQuery
          hParse with
        ⟨log, hHover⟩
      refine ⟨?_, .inl ⟨⟨e, rfl⟩, ?_⟩⟩
      · intro f g
        simp only [hover, hHover, and_self]
      · intro f
        simp only [hover, hHover, and_self]
  | ok root =>
      let a :=
        Answer.ofTree (some schema) text.toList root
          (p.offsetIn text.toList)
      have hAnswer :
          Answer.resolve (some schema) text.toList p =
            .ok a := by
        unfold Answer.resolve
        rw [hParse]
        rfl
      rcases runHover_answered hLine hCharacter hSchema hQuery
          hAnswer with
        ⟨log, hRun⟩
      have hHover :
          hover = answered w.color source p a log :=
        funext hRun
      rw [hHover]
      refine ⟨fun _ _ => ⟨rfl, rfl⟩,
        .inr ⟨a, hAnswer, fun _ => error_eq_none_iff, ?_,
          stdout_text, stdout_pretty, a.toJson, stdout_json,
          Answer.toJson_eq_null_iff hParse, ?_⟩⟩
      · intro hContent f
        exact ⟨.nothingFound p, if_pos hContent, rfl, rfl⟩
      · intro hContent
        rcases Answer.exists_range? hParse hContent with
          ⟨r, hRange⟩
        exact ⟨r, hRange, Answer.toJson_at hRange⟩

/- A description with a character that JSON escapes. -/
theorem hover_formats_agree_escaped :
    let w : Surroundings :=
      { directory := "/"
        read := fun _ =>
          .ok "type Query\x7b\"<\" a:Int\x7d"
        input := "\x7ba\x7d"
        color := false }
    let o : Options := { character := 1 }
    ∃ schema path document,
      readSchema w o = .ok (schema, path) ∧
        Json.parse? (runHover w o .json []).stdout.toList =
          some document ∧
        document.at? ["contents", "value"] =
          some (.string "Query.a: Int\n\n<") ∧
        (runHover w o .text []).error =
          (runHover w o .json []).error := by
  intro w o
  have hQuery : readQuery w [] = .ok ("stdin", w.input) :=
    rfl
  have hAdmitted :
      (Document.parse w.input.toList).toBool = true := by
    decide +kernel
  have hSeen :
      ((readSchema w o).toOption.bind fun read =>
        (Answer.resolve (some read.1) w.input.toList
          ⟨0, 1⟩).toOption.map Answer.content) =
        some "Query.a: Int\n\n<" := by
    decide +kernel
  cases hSchema : readSchema w o with
  | error e =>
      rw [hSchema] at hSeen
      cases hSeen
  | ok read =>
      rcases hover_formats_agree (by decide) (by decide)
          hSchema hQuery with
        ⟨hSame, hRefused | ⟨a, hAnswer, _, _, _, _, document,
          hParse, _, hValues⟩⟩
      · rcases hRefused.1 with ⟨e, hError⟩
        rw [hError] at hAdmitted
        cases hAdmitted
      · rw [hSchema] at hSeen
        change ((Answer.resolve _ _ _).toOption.map _) = _
          at hSeen
        rw [hAnswer] at hSeen
        have hContent : a.content = "Query.a: Int\n\n<" :=
          Option.some.inj hSeen
        rw [hContent] at hValues
        rcases hValues (by decide) with ⟨_, _, hValue, _⟩
        exact ⟨read.1, read.2, document, rfl, hParse, hValue,
          (hSame .text .json).1⟩

end Command

end QueryHover
