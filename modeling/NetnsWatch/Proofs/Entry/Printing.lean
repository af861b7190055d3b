import NetnsWatch.Correlator
import NetnsWatch.Notice
import NetnsWatch.Proofs.Entry.Line
import NetnsWatch.Proofs.Event.Naming
import NetnsWatch.Proofs.Text.Decoding
import NetnsWatch.Proofs.Text.Lines
import Mathlib.Data.List.Forall2

/-!
# The lines that a report prints

Everything in the text of an entry but the name of its process is free of line breaks. A name is
printed as it was decoded, and decoding makes a line break of the byte for it and of nothing else. So
an entry takes one line, and one more for every such byte that a process has put into its name: then
what follows the break stands at the beginning of a line, whatever it looks like.
-/

namespace NetnsWatch

open Text

/-- The line feeds in the name of an occurrence's process, up to its first NUL. -/
def Occurrence.lineFeeds : Occurrence → Nat
  | process e => e.command.name.count 10
  | nsid _ => 0
  | rejected _ => 0

/-- What the report prints about entries: the text of each with a line break behind it. -/
def printed (entries : List Entry) : List Char :=
  entries.flatMap fun e => (Notice.entry e).text.toList ++ ['\n']

namespace Entry

/-- The beginning of an entry's text: its number. -/
def heading (e : Entry) : List Char :=
  '#' :: (digits e.seq ++ [' '])

/-- Lines that an entry takes: they are its text, the first of them begins with its number, and there
is another one for each line break in the name of its process. -/
structure Takes (e : Entry) (group : List (List Char)) : Prop where
  text_eq : ['\n'].intercalate group = e.line.toList
  unbroken : ∀ line ∈ group, '\n' ∉ line
  begins : ∃ first, group.head? = some first ∧ e.heading <+: first
  length_eq : group.length = e.occurrence.lineFeeds + 1

end Entry

/-- What is printed about entries is one line for each, in order, that begins with its number. -/
def OneLineEach (entries : List Entry) : Prop :=
  List.Forall₂ (fun (e : Entry) line => e.heading <+: line) entries (lines (printed entries))

namespace Line

/-- A plain text holds no line break. -/
theorem count_of_plain {text : List Char} (h : text.all plain = true) : text.count '\n' = 0 :=
  List.count_eq_zero.mpr (not_mem_of_plain rfl h)

/-- The number in the body of a notification holds no line break. -/
theorem count_bodyNumber (nsid : Option Int32) : (bodyNumber nsid).count '\n' = 0 := by
  cases nsid with
  | none => rfl
  | some nsid =>
    have hsigned := count_of_plain (plain_signed nsid.toInt)
    rw [bodyNumber, toList_toString_int]
    simp [hsigned]

/-- Why a record could not be read is told without a line break. -/
theorem count_message (error : SchemaError) : error.message.toList.count '\n' = 0 := by
  cases error with
  | length expected actual =>
    have hlengths := count_of_plain (plain_lengths expected actual)
    rw [toList_message_length]
    simp [hlengths]
  | unknownKind code =>
    have hcode := count_of_plain (plain_digits code.toNat)
    rw [toList_message_unknownKind]
    simp [hcode]

/-- What follows the word in brackets has the line breaks of the name of a process. -/
theorem count_body (o : Occurrence) : (body o).count '\n' = o.lineFeeds := by
  cases o with
  | process e =>
    have hname : e.command.text.toList.count '\n' = e.command.name.count 10 :=
      Utf8.count_decode ⟨by decide, by decide⟩ e.command.name
    have hids := count_of_plain (plain_ids e)
    simp [body, Occurrence.lineFeeds, hname, hids]
  | nsid n =>
    have hnumber := count_of_plain (plain_number n.nsid)
    simp [body, Occurrence.lineFeeds, hnumber, count_bodyNumber]
  | rejected error => exact count_message error

/-- The end of a line holds no line break. -/
theorem count_ending (association : Option Association) : (ending association).count '\n' = 0 := by
  cases association with
  | none => rfl
  | some a =>
    have hnumber := count_of_plain (plain_digits a.nsid.toNat)
    have hreference := count_of_plain (plain_reference a)
    rw [ending, toList_text]
    simp [hnumber, hreference]

end Line

namespace Entry

/-- The text of an entry begins with its number. -/
theorem exists_line_eq (e : Entry) : ∃ rest, e.line.toList = e.heading ++ rest := by
  refine ⟨e.occurrence.text.toList ++ Line.ending e.association, ?_⟩
  rw [toList_line, heading, List.cons_append, List.append_assoc, List.singleton_append]

/-- No line break stands in the number of an entry. -/
theorem not_mem_heading (e : Entry) : '\n' ∉ e.heading := by
  have hdigits := Line.not_mem_of_plain (c := '\n') rfl (Line.plain_digits e.seq)
  simp [heading, hdigits]

/-- The text of an entry has the line breaks of the name of its process. -/
theorem count_line (e : Entry) : e.line.toList.count '\n' = e.occurrence.lineFeeds := by
  have hseq := Line.count_of_plain (Line.plain_digits e.seq)
  have htag := Line.count_of_plain (Line.plain_tag e.occurrence)
  rw [toList_line, Line.toList_text_occurrence]
  simp [hseq, htag, Line.count_body, Line.count_ending]

/-- An entry takes the lines that its text is cut into. -/
theorem takes_splitOn (e : Entry) : e.Takes (e.line.toList.splitOn '\n') where
  text_eq := List.intercalate_splitOn '\n'
  unbroken := fun _ => not_mem_of_mem_splitOn
  begins := by
    obtain ⟨rest, hline⟩ := e.exists_line_eq
    rw [hline]
    exact exists_head_splitOn e.not_mem_heading rest
  length_eq := by rw [length_splitOn, count_line]

end Entry

/-- What is printed is cut into the lines that the entries take. -/
theorem lines_printed (entries : List Entry) : lines (printed entries) =
    (entries.map fun e => e.line.toList.splitOn '\n').flatten :=
  lines_flatMap (fun e => (Notice.entry e).text.toList) entries

/-- There is one line for each entry, and one for each line break in a name. -/
theorem length_lines_printed (entries : List Entry) : (lines (printed entries)).length =
    entries.length + (entries.map fun e => e.occurrence.lineFeeds).sum := by
  rw [lines_printed]
  induction entries with
  | nil => rfl
  | cons e rest ih =>
    rw [List.map_cons, List.flatten_cons, List.length_append, ih, e.takes_splitOn.length_eq,
      List.length_cons, List.map_cons, List.sum_cons]
    omega

/-- Where no name holds a line break, every entry takes one line. -/
theorem oneLineEach_of_lineFeeds {entries : List Entry}
    (h : ∀ e ∈ entries, e.occurrence.lineFeeds = 0) : OneLineEach entries := by
  rw [OneLineEach, lines_printed]
  induction entries with
  | nil => exact List.Forall₂.nil
  | cons e rest ih =>
    obtain ⟨first, hfirst, hheading⟩ := e.takes_splitOn.begins
    have hlength := e.takes_splitOn.length_eq
    rw [h e List.mem_cons_self, List.length_eq_one_iff] at hlength
    obtain ⟨line, hline⟩ := hlength
    rw [hline, List.head?_cons, Option.some.injEq] at hfirst
    rw [List.map_cons, List.flatten_cons, hline, List.singleton_append]
    exact List.Forall₂.cons (hfirst ▸ hheading)
      (ih fun other hother => h other (List.mem_cons_of_mem e hother))

/-- Every entry takes one line exactly where no name holds a line break. -/
theorem oneLineEach_iff (entries : List Entry) :
    OneLineEach entries ↔ ∀ e ∈ entries, e.occurrence.lineFeeds = 0 := by
  refine ⟨fun h e he => ?_, oneLineEach_of_lineFeeds⟩
  -- A line that some name adds would have no entry to stand for.
  have hlength := h.length_eq
  rw [length_lines_printed] at hlength
  have hnone : (entries.map fun e => e.occurrence.lineFeeds).sum = 0 := by omega
  exact List.sum_eq_zero_iff_forall_eq_nat.mp hnone _ (List.mem_map_of_mem he)

/-- The name of a process that was read is what its record has in the last sixteen bytes before the
first NUL. -/
theorem Event.name_of_decode {record : Bytes} {e : Event} (h : Event.decode record = .ok e) :
    e.command.name = (record.drop 24).takeWhile (· != 0) := by
  obtain ⟨hlength, -⟩ := (Event.decode_eq_ok_iff record).mp ⟨e, h⟩
  have hfront : (record.take 24).length = 24 := by
    rw [List.length_take, hlength]
    rfl
  have hfield : e.command.bytes = Command.cutAtNul (record.drop 24) :=
    calc e.command.bytes
      _ = e.encode.drop 24 := (Record.drop_toBytes e.toRecord).symm
      _ = (record.take 24 ++ Command.cutAtNul (record.drop 24)).drop 24 := by
        rw [(Event.encode_of_decode h).1]
      _ = Command.cutAtNul (record.drop 24) := List.drop_left' hfront
  rw [Command.name, hfield, ← Command.zeroFromNul_eq_cutAtNul, Command.takeWhile_zeroFromNul]

/-- What is printed about entries is cut at the line breaks into the lines of one entry after the
other: the first line of each begins with the entry's number, and there is another one for each line
break that its process has in its name, before the first NUL. So every entry takes one line exactly
where no process has a line break there; nothing else that a record can hold adds a line. -/
theorem printed_lines (entries : List Entry) :
    (∃ groups, List.Forall₂ Entry.Takes entries groups ∧
      lines (printed entries) = groups.flatten) ∧
    (OneLineEach entries ↔ ∀ e ∈ entries, e.occurrence.lineFeeds = 0) ∧
    ∀ record event, Event.decode record = .ok event →
      (Occurrence.process event).lineFeeds = ((record.drop 24).takeWhile (· != 0)).count 10 := by
  refine ⟨⟨entries.map fun e => e.line.toList.splitOn '\n', ?_, lines_printed entries⟩,
    oneLineEach_iff entries, fun record event h => ?_⟩
  · rw [List.forall₂_map_right_iff, List.forall₂_same]
    exact fun e _ => e.takes_splitOn
  · rw [Occurrence.lineFeeds, Event.name_of_decode h]

/-- The record of a process whose name has a broken sequence and a control character, and a line
break only behind its NUL. -/
def veiledRecord : Bytes :=
  List.replicate 24 0 ++ [27, 91, 195, 65, 0, 10, 35, 50, 32, 0, 0, 0, 0, 0, 0, 0]

/-- What is read from it. -/
def veiled : Event where
  kind := .fork
  pid := 0
  tid := 0
  uid := 0
  gid := 0
  parentPid := 0
  command := ⟨[27, 91, 195, 65, 0, 0, 0, 0, 0, 0, 0, 0, 0, 0, 0, 0], rfl⟩

/-- It takes one line. -/
theorem veiled_one_line : Event.decode veiledRecord = .ok veiled ∧
    (Occurrence.process veiled).lineFeeds = 0 ∧
    OneLineEach
      [{ seq := 1, arrivedAt := 0, occurrence := .process veiled, association := none }] := by
  have hdecode : Event.decode veiledRecord = .ok veiled := by decide +kernel
  have hname : ((veiledRecord.drop 24).takeWhile (· != 0)).count 10 = 0 := by decide +kernel
  have hnone := ((printed_lines []).2.2 veiledRecord veiled hdecode).trans hname
  refine ⟨hdecode, hnone, (printed_lines _).2.1.mpr fun e he => ?_⟩
  rw [List.mem_singleton.mp he]
  exact hnone

/-- A process that has a line break at the beginning of its name, and behind it the beginning of an
entry's text. -/
def forger : Event where
  kind := .fork
  pid := 100
  tid := 100
  uid := 0
  gid := 0
  parentPid := 1
  command := ⟨[10, 35, 50, 32, 91, 69, 88, 73, 84, 93, 32, 105, 110, 105, 116, 0], rfl⟩

/-- The entry that the correlator makes of it. -/
def forgery : Entry :=
  ((Correlator.create 0).accept { arrivedAt := 0, occurrence := .process forger }).1

/-- The entry that it pretends. -/
def pretended : Entry where
  seq := 2
  arrivedAt := 0
  occurrence :=
    .process { forger with kind := .exit, command := Command.ofName [105, 110, 105, 116] }
  association := none

/-- The one entry of such a process takes two lines, and the second is the line of another entry. -/
theorem forgery_two_lines : Event.decode forger.encode = .ok forger ∧
    lines (printed [forgery]) = ["#1 [FORK] ".toList, pretended.line.toList] ∧
    ¬ OneLineEach [forgery] := by
  have hlines : lines (printed [forgery]) = ["#1 [FORK] ".toList, pretended.line.toList] := by
    decide +kernel
  refine ⟨by decide +kernel, hlines, fun hone => ?_⟩
  have hlength := hone.length_eq
  rw [hlines] at hlength
  cases hlength

end NetnsWatch
