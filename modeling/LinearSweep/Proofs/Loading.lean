import LinearSweep.Command.Run
import LinearSweep.Proofs.Packing
import LinearSweep.Proofs.Tokens
import LinearSweep.Proofs.Words
import Mathlib.Data.List.Forall2

/-!
# Loading packed images

The texts that a list of words can be written as, and what is loaded from a file that holds one of
them.  Commas, blanks and comments may stand around the words in any number and order, and between
two words there must be one.  A comment has any of three line ends, or the end of the file.

All of these texts have the same tokens, up to the notation of the words, `Written.tokens_eq`, and
so the same image is loaded from them.
-/

namespace LinearSweep.WordList

/-! ## The format -/

/-- A comment without the end of its line. -/
inductive IsComment : List Char → Prop where
  | intro {mark : Char} {body : List Char} :
      mark ∈ ['#', ';'] → '\n' ∉ body → '\r' ∉ body → IsComment (mark :: body)

/-- What may stand between words, apart from there having to be something. -/
inductive IsGap : List Char → Prop where
  | nil : IsGap []
  | separator {c : Char} {gap : List Char} :
      c = ',' ∨ Text.isBlank c = true → IsGap gap → IsGap (c :: gap)
  | comment {comment lineEnd gap : List Char} :
      IsComment comment → lineEnd ∈ [['\n'], ['\r', '\n'], ['\r']] → IsGap gap →
      IsGap (comment ++ lineEnd ++ gap)

/-- What may stand behind a word of a file, with the words that come next. -/
inductive Continues : List Int → List Char → Prop where
  | gap {gap : List Char} : IsGap gap → Continues [] gap
  /-- The end of the file may end a comment. -/
  | comment {gap comment : List Char} :
      IsGap gap → IsComment comment → Continues [] (gap ++ comment)
  | word {w : Int} {ws : List Int} {gap word rest : List Char} :
      IsGap gap → gap ≠ [] → WritesWord w word → Continues ws rest →
      Continues (w :: ws) (gap ++ word ++ rest)

/-- A text that a list of words can be written as. -/
inductive Written : List Int → List Char → Prop where
  | none {rest : List Char} : Continues [] rest → Written [] rest
  | some {w : Int} {ws : List Int} {gap word rest : List Char} :
      IsGap gap → WritesWord w word → Continues ws rest → Written (w :: ws) (gap ++ word ++ rest)

/-! ## Line ends -/

theorem unifyLineEnds_append (text other : List Char) :
    unifyLineEnds (text ++ other) = unifyLineEnds text ++ unifyLineEnds other :=
  List.map_append

theorem unifyLineEnds_of_not_mem {text : List Char} (without : '\r' ∉ text) :
    unifyLineEnds text = text := by
  rw [unifyLineEnds]
  conv_rhs => rw [← List.map_id text]
  apply List.map_congr_left
  intro c member
  rw [if_neg (ne_of_mem_of_not_mem member without), id]

/-! ## Gaps -/

theorem startsComment_of_mem {mark : Char} (known : mark ∈ ['#', ';']) :
    startsComment mark = true := by
  simpa [startsComment] using known

theorem IsComment.unifyLineEnds_eq {comment : List Char} (isComment : IsComment comment) :
    unifyLineEnds comment = comment := by
  cases isComment with
  | intro known _ noReturn =>
    apply unifyLineEnds_of_not_mem
    rw [List.mem_cons, not_or]
    refine ⟨?_, noReturn⟩
    rintro rfl
    exact absurd known (by decide)

theorem IsComment.tokens_append {comment rest : List Char} (isComment : IsComment comment)
    (ends : EndsLine rest) : tokens (comment ++ rest) = tokens rest := by
  cases isComment with
  | intro known noFeed _ => exact tokens_comment (startsComment_of_mem known) noFeed ends

theorem IsComment.endsWord {comment : List Char} (isComment : IsComment comment)
    (rest : List Char) : EndsWord (comment ++ rest) := by
  cases isComment with
  | @intro mark _ known _ _ =>
    intro c first
    obtain rfl : mark = c := Option.some.inj first
    exact .inr (startsComment_of_mem known)

/-- Each line end becomes a line feed, and what else it becomes adds no tokens. -/
theorem exists_of_lineEnd {lineEnd : List Char} (known : lineEnd ∈ [['\n'], ['\r', '\n'], ['\r']]) :
    ∃ feeds, unifyLineEnds lineEnd = '\n' :: feeds ∧
      ∀ rest, tokens ('\n' :: feeds ++ rest) = tokens rest := by
  have feed (rest : List Char) : tokens ('\n' :: rest) = tokens rest :=
    tokens_separator (by decide) rest
  simp only [List.mem_cons, List.not_mem_nil, or_false] at known
  obtain rfl | rfl | rfl := known
  · exact ⟨[], rfl, feed⟩
  · exact ⟨['\n'], rfl, fun rest => (feed _).trans (feed rest)⟩
  · exact ⟨[], rfl, feed⟩

theorem isSeparator_unified {c : Char} (separator : c = ',' ∨ Text.isBlank c = true) :
    isSeparator (if c = '\r' then '\n' else c) = true := by
  split
  · decide
  · simpa [isSeparator] using separator

theorem IsGap.tokens_append {gap : List Char} (isGap : IsGap gap) (rest : List Char) :
    tokens (unifyLineEnds gap ++ rest) = tokens rest := by
  induction isGap with
  | nil => rfl
  | separator separator _ ih => exact (tokens_separator (isSeparator_unified separator) _).trans ih
  | comment isComment known _ ih =>
    obtain ⟨feeds, unified, hidden⟩ := exists_of_lineEnd known
    rw [unifyLineEnds_append, unifyLineEnds_append, isComment.unifyLineEnds_eq, unified,
      List.append_assoc, List.append_assoc]
    exact (isComment.tokens_append (.inr ⟨_, rfl⟩)).trans ((hidden _).trans ih)

theorem IsGap.endsWord {gap : List Char} (isGap : IsGap gap) : EndsWord (unifyLineEnds gap) := by
  cases isGap with
  | nil => simp [EndsWord, unifyLineEnds]
  | separator separator _ =>
    intro c first
    obtain rfl := Option.some.inj first
    exact .inl (isSeparator_unified separator)
  | comment isComment _ _ =>
    rw [unifyLineEnds_append, unifyLineEnds_append, isComment.unifyLineEnds_eq, List.append_assoc]
    exact isComment.endsWord _

/-! ## Words -/

theorem WritesWord.unifyLineEnds_eq {w : Int} {word : List Char} (writes : WritesWord w word) :
    unifyLineEnds word = word :=
  unifyLineEnds_of_not_mem fun member =>
    absurd (writes.isWordChar_of_mem member) (by decide)

theorem WritesWord.tokens_append {w : Int} {gap word rest : List Char} (isGap : IsGap gap)
    (writes : WritesWord w word) (ends : EndsWord (unifyLineEnds rest)) :
    tokens (unifyLineEnds (gap ++ word ++ rest)) = word :: tokens (unifyLineEnds rest) := by
  rw [unifyLineEnds_append, unifyLineEnds_append, writes.unifyLineEnds_eq, List.append_assoc,
    isGap.tokens_append]
  exact tokens_word writes.ne_nil (fun _ member =>
    outside_of_isWordChar (writes.isWordChar_of_mem member)) ends

theorem Continues.endsWord {ws : List Int} {text : List Char} (continues : Continues ws text) :
    EndsWord (unifyLineEnds text) := by
  cases continues with
  | gap isGap => exact isGap.endsWord
  | comment isGap isComment =>
    rw [unifyLineEnds_append, isComment.unifyLineEnds_eq]
    refine isGap.endsWord.append fun _ => ?_
    simpa using isComment.endsWord []
  | word isGap filled _ _ =>
    rw [List.append_assoc, unifyLineEnds_append]
    refine isGap.endsWord.append fun empty => absurd ?_ filled
    simpa [unifyLineEnds] using empty

theorem Continues.tokens_eq {ws : List Int} {text : List Char} (continues : Continues ws text) :
    List.Forall₂ WritesWord ws (tokens (unifyLineEnds text)) := by
  induction continues with
  | gap isGap =>
    have hidden := isGap.tokens_append []
    rw [List.append_nil] at hidden
    rw [hidden]
    exact .nil
  | comment isGap isComment =>
    have hidden := isComment.tokens_append (.inl rfl)
    rw [List.append_nil] at hidden
    rw [unifyLineEnds_append, isGap.tokens_append, isComment.unifyLineEnds_eq, hidden]
    exact .nil
  | word isGap _ writes continues ih =>
    rw [writes.tokens_append isGap continues.endsWord]
    exact .cons writes ih

theorem Written.tokens_eq {ws : List Int} {text : List Char} (written : Written ws text) :
    List.Forall₂ WritesWord ws (tokens (unifyLineEnds text)) := by
  cases written with
  | none continues => exact continues.tokens_eq
  | some isGap writes continues =>
    rw [writes.tokens_append isGap continues.endsWord]
    exact .cons writes continues.tokens_eq

/-! ## Bytes of a text -/

theorem toList_loop_eq (bytes : ByteArray) (i : Nat) (done : List UInt8) :
    ByteArray.toList.loop bytes i done = done.reverse ++ bytes.data.toList.drop i := by
  induction left : bytes.size - i generalizing i done with
  | zero =>
    have past : ¬ i < bytes.size := by omega
    have none : bytes.data.toList.drop i = [] := by
      rw [List.drop_eq_nil_iff, Array.length_toList]
      exact Nat.le_of_not_lt past
    rw [ByteArray.toList.loop.eq_1, if_neg past, none, List.append_nil]
  | succ left ih =>
    have within : i < bytes.size := by omega
    have first : bytes.data.toList.drop i = bytes.get! i :: bytes.data.toList.drop (i + 1) := by
      rw [List.drop_eq_getElem_cons (by simpa using within)]
      congr 1
      exact (getElem!_pos bytes.data i within).symm
    rw [ByteArray.toList.loop.eq_1, if_pos within, ih (i + 1) _ (by omega), first,
      List.reverse_cons, List.append_assoc]
    rfl

theorem toByteArray_toList (bytes : ByteArray) : bytes.toList.toByteArray = bytes := by
  have list : bytes.toList = bytes.data.toList := by
    rw [ByteArray.toList, toList_loop_eq]
    rfl
  apply ByteArray.ext
  rw [list, List.data_toByteArray]

theorem fromUTF8?_toUTF8 (text : String) : String.fromUTF8? text.toUTF8 = some text := by
  rw [String.toUTF8_eq_toByteArray, String.fromUTF8?, dif_pos text.isValidUTF8]
  rfl

/-! ## Files -/

theorem mapM_readWord {ws : List Int} {tokens : List (List Char)}
    (writes : List.Forall₂ WritesWord ws tokens) (k : Nat) :
    (tokens.zipIdx k).mapM (fun (token, i) => readWord token (some (i : Int))) = .ok ws := by
  induction writes generalizing k with
  | nil => rfl
  | cons word _ ih =>
    rw [List.zipIdx_cons, List.mapM_cons, ih (k + 1)]
    simp only [word.readWord_eq]
    rfl

theorem read_of_written {ws : List Int} {text : List Char} (written : Written ws text) :
    read (unifyLineEnds text) = .ok ws :=
  mapM_readWord written.tokens_eq 0

/-- A file that holds a text is read as the text, with its line ends unified. -/
theorem readBytes_of_text (text : String) :
    readBytes text.toUTF8.toList = read (unifyLineEnds text.toList) := by
  rw [readBytes, toByteArray_toList, fromUTF8?_toUTF8]

end WordList

/-- An image of whole words is loaded from every file that its words can be written to, in the same
way as from a file that holds it as it is. -/
theorem load_of_written_words {disk : Disk} {packed raw : RawText} {image : List UInt8}
    {text : String} (whole : 4 ∣ image.length)
    (written : WordList.Written (WordList.pack image) text.toList)
    (packedFile : disk.read (Path.shown packed) = .ok text.toUTF8.toList)
    (rawFile : disk.read (Path.shown raw) = .ok image) :
    (Command.load disk packed true).result = .ok image ∧
      (Command.load disk raw false).result = .ok image := by
  have words : WordList.readBytes text.toUTF8.toList = .ok (WordList.pack image) := by
    rw [WordList.readBytes_of_text, WordList.read_of_written written]
  have unpacked : Command.unpackFile text.toUTF8.toList = .ok (WordList.pack image, image) := by
    have image := WordList.unpack_pack whole
    simp only [Command.unpackFile, words, Except.mapError, bind, Except.bind, image]
    rfl
  constructor
  · simp only [Command.load, packedFile, Except.mapError, bind, Except.bind, unpacked, if_true]
  · simp only [Command.load, rawFile, Except.mapError, Bool.false_eq_true, if_false]

/-- Three words in as many notations, between comments with different line ends. -/
theorem load_of_annotated_words :
    let text := "; image\r\n -0099,# reset\r\t-$15ffBE57\u3000+0X60000022\n; end"
    let image : List UInt8 :=
      [0x9D, 0xFF, 0xFF, 0xFF, 0xA9, 0x41, 0x00, 0xEA, 0x22, 0x00, 0x00, 0x60]
    let disk : Disk := { files := [(["rom.txt"], text.toUTF8.toList), (["rom.bin"], image)] }
    4 ∣ image.length ∧ WordList.Written (WordList.pack image) text.toList ∧
      disk.read (Path.shown "rom.txt") = .ok text.toUTF8.toList ∧
      disk.read (Path.shown "rom.bin") = .ok image ∧
      (Command.load disk "rom.txt" true).result = .ok image ∧
      (Command.load disk "rom.bin" false).result = .ok image := by
  intro text image disk
  have whole : 4 ∣ image.length := by decide
  have written : WordList.Written (WordList.pack image) text.toList := by
    have words : WordList.pack image =
        [-((99 : Nat) : Int), -((0x15FFBE57 : Nat) : Int), ((0x60000022 : Nat) : Int)] := by
      decide
    have parts : text.toList =
        ("; image".toList ++ "\r\n".toList ++ [' ']) ++ ('-' :: "0099".toList) ++
          ((',' :: ("# reset".toList ++ "\r".toList ++ ['\t'])) ++
            ('-' :: ("$".toList ++ "15ffBE57".toList)) ++
            (['\u3000'] ++ ('+' :: ("0X".toList ++ "60000022".toList)) ++
              (['\n'] ++ "; end".toList))) := by
      decide
    have blank (c : Char) (known : Text.isBlank c = true) : WordList.IsGap [c] :=
      .separator (.inr known) .nil
    have comment (mark : Char) (body : String) (known : mark ∈ ['#', ';'])
        (noFeed : '\n' ∉ body.toList) (noReturn : '\r' ∉ body.toList) :
        WordList.IsComment (mark :: body.toList) :=
      .intro known noFeed noReturn
    rw [words, parts]
    refine .some (.comment (comment ';' " image" ?_ ?_ ?_) ?_ (blank _ ?_))
      (.minus (.decimal ⟨2, ?_⟩ ?_))
      (.word (.separator (.inl rfl) (.comment (comment '#' " reset" ?_ ?_ ?_) ?_ (blank _ ?_))) ?_
        (.minus (.hex ?_ ⟨0, ?_⟩))
        (.word (blank _ ?_) ?_ (.plus (.hex ?_ ⟨0, ?_⟩))
          (.comment (blank _ ?_) (comment ';' " end" ?_ ?_ ?_))))
    all_goals decide
  have files (content other : List UInt8) :
      let disk : Disk := { files := [(["rom.txt"], content), (["rom.bin"], other)] }
      disk.read (Path.shown "rom.txt") = .ok content ∧
        disk.read (Path.shown "rom.bin") = .ok other := by
    exact ⟨rfl, rfl⟩
  obtain ⟨packedFile, rawFile⟩ := files text.toUTF8.toList image
  exact ⟨whole, written, packedFile, rawFile,
    load_of_written_words whole written packedFile rawFile⟩

end LinearSweep
