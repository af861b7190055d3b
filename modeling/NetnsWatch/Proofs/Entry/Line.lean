import NetnsWatch.Entry
import NetnsWatch.Proofs.Text.Duration

/-!
# The line of an entry is unambiguous

A process chooses its name, so the middle of a line may hold any text, the tail of another line
included. But behind the name only numbers in a fixed frame follow, so the line can be read from its
end: what stands behind its last parenthesis tells whether an assignment is named, and, that taken
away, the last parenthesis left is where the ids begin. So a line tells everything that it shows.
-/

namespace NetnsWatch

open Text

/-- What a line tells of an occurrence: of a command, its text. -/
inductive Line.Content where
  | process (kind : Kind) (command : String) (pid tid parentPid uid gid : UInt32)
  | nsid (notification : NsidNotification)
  | rejected (error : SchemaError)
  deriving DecidableEq

/-- What is told of an occurrence. -/
def Occurrence.content : Occurrence → Line.Content
  | process e => .process e.kind e.command.text e.pid e.tid e.parentPid e.uid e.gid
  | nsid notification => .nsid notification
  | rejected error => .rejected error

/-- What a line tells of an association: the number, where it was assigned, and how long before. -/
def Association.content (a : Association) : NsId × Nat × Duration :=
  (a.nsid, a.nsidSeq, a.delay)

namespace Line

/-- The text after the last parenthesis does not begin like a reference to an entry. -/
def Unjoined (text : List Char) : Prop :=
  ∀ front back, text = front ++ '(' :: back → '(' ∉ back → back.head? ≠ some '#'

/-- A text without a parenthesis names no entry. -/
theorem unjoined_of_not_mem {text : List Char} (h : '(' ∉ text) : Unjoined text := by
  rintro front back rfl
  exact absurd (List.mem_append_right front List.mem_cons_self) h

/-- A text whose last parenthesis opens with something else names no entry. -/
theorem unjoined_append {front back : List Char} (hback : '(' ∉ back)
    (hhead : back.head? ≠ some '#') : Unjoined (front ++ '(' :: back) := by
  intro front' back' hsame hback'
  obtain ⟨-, rfl⟩ := cut_last hback hback' hsame
  exact hhead

/-- What stands in front of a text cannot make it name an entry, if it holds no parenthesis. -/
theorem Unjoined.append_left {front text : List Char} (h : Unjoined text) (hfront : '(' ∉ front) :
    Unjoined (front ++ text) := by
  intro before back hsplit hback
  obtain ⟨mid, rfl, htext⟩ | ⟨mid, rfl, htext⟩ := List.append_eq_append_iff.mp hsplit
  · exact h mid back htext hback
  · cases mid with
    | nil => exact h [] back htext.symm hback
    | cons c mid =>
      -- The parenthesis would stand in front of the text.
      obtain ⟨rfl, -⟩ := List.cons.inj htext
      exact absurd (List.mem_append_right before List.mem_cons_self) hfront

section Plain

/-- Letters, digits, and the signs that stand with them in the fixed parts of a line. No opening
parenthesis is among them, no bracket and no line break. -/
def plain (c : Char) : Bool :=
  c.isAlphanum || "#.,:-_µ )".toList.contains c

/-- What is not plain does not occur in a plain text. -/
theorem not_mem_of_plain {c : Char} (hc : plain c = false) {text : List Char}
    (h : text.all plain = true) : c ∉ text := by
  intro hmem
  have hplain := List.all_eq_true.mp h c hmem
  rw [hc] at hplain
  cases hplain

/-- A digit is plain. -/
theorem plain_of_isDigit {c : Char} (h : c.isDigit = true) : plain c = true := by
  simp [plain, Char.isAlphanum, h]

/-- Numbers are plain. -/
theorem plain_digits (n : Nat) : (digits n).all plain = true :=
  List.all_eq_true.mpr fun _ hc => plain_of_isDigit (isDigit_of_mem_digits hc)

/-- Numbers that may be negative are plain. -/
theorem plain_signed (x : Int) : (signed x).all plain = true := by
  refine List.all_eq_true.mpr fun c hc => ?_
  rcases isDigit_or_eq_of_mem_signed hc with hdigit | rfl
  · exact plain_of_isDigit hdigit
  · rfl

/-- Durations are plain. -/
theorem plain_duration (d : Duration) : d.text.toList.all plain = true := by
  have hunits : ∀ s ∈ Duration.scales, s.name.toList.all plain = true := by decide
  refine List.all_eq_true.mpr fun c hc => ?_
  rcases Duration.numeric_or_mem_name hc with hnumeric | ⟨s, hs, hname⟩
  · rcases Bool.or_eq_true_iff.mp hnumeric with hdigit | hpoint
    · exact plain_of_isDigit hdigit
    · rw [beq_iff_eq.mp hpoint]
      rfl
  · exact List.all_eq_true.mp (hunits s hs) c hname

end Plain

/-- The end of a line, behind the occurrence. -/
def ending : Option Association → List Char
  | none => []
  | some a => a.text.toList

/-- What stands behind the last parenthesis of an association. -/
def reference (a : Association) : List Char :=
  '#' :: (digits a.nsidSeq ++ (", ".toList ++ (a.delay.text.toList ++ " earlier)".toList)))

/-- An association is a number and, in parentheses, a reference. -/
theorem toList_text (a : Association) : a.text.toList =
    " <-> nsid ".toList ++ (digits a.nsid.toNat ++ " ".toList) ++ '(' :: reference a := by
  have hopen : " (#".toList = " ".toList ++ ['(', '#'] := rfl
  unfold Association.text reference
  simp only [String.toList_append, toList_toString, hopen, List.append_assoc, List.cons_append,
    List.nil_append]

/-- A reference is plain. -/
theorem plain_reference (a : Association) : (reference a).all plain = true := by
  unfold reference
  simp only [List.all_cons, List.all_append, plain_digits, plain_duration]
  decide

/-- A reference holds no parenthesis. -/
theorem not_mem_reference (a : Association) : '(' ∉ reference a :=
  not_mem_of_plain rfl (plain_reference a)

/-- A reference tells which entry it names, and how long before. -/
theorem reference_inj {a b : Association} (h : reference a = reference b) :
    a.nsidSeq = b.nsidSeq ∧ a.delay = b.delay := by
  have hbreaks (d : Duration) :
      Breaks Char.isDigit (", ".toList ++ (d.text.toList ++ " earlier)".toList)) :=
    breaks_append rfl _
  obtain ⟨hseq, hrest⟩ := cut_number (hbreaks a.delay) (hbreaks b.delay) (List.cons.inj h).2
  have hdelay := List.append_cancel_right (List.append_cancel_left hrest)
  exact ⟨hseq, Duration.text_inj (String.toList_inj.mp hdelay)⟩

/-- What stands in front of a reference tells the number. -/
theorem number_inj {m n : Nat} {text text' : List Char}
    (h : text ++ (" <-> nsid ".toList ++ (digits m ++ " ".toList)) =
      text' ++ (" <-> nsid ".toList ++ (digits n ++ " ".toList))) : text = text' ∧ m = n := by
  have hnumbers : (text ++ " <-> nsid ".toList) ++ digits m =
      (text' ++ " <-> nsid ".toList) ++ digits n := by
    have hspace : ((text ++ " <-> nsid ".toList) ++ digits m) ++ " ".toList =
        ((text' ++ " <-> nsid ".toList) ++ digits n) ++ " ".toList := by
      simpa only [List.append_assoc] using h
    exact List.append_cancel_right hspace
  have hbreaks (text : List Char) : Breaks Char.isDigit (text ++ " <-> nsid ".toList).reverse := by
    rw [List.reverse_append]
    exact breaks_cons rfl
  obtain ⟨hfront, hdigits⟩ := cut_back (fun _ => isDigit_of_mem_digits)
    (fun _ => isDigit_of_mem_digits) (hbreaks text) (hbreaks text') hnumbers
  exact ⟨List.append_cancel_right hfront, digits_inj hdigits⟩

/-- A text that names no entry and the association behind it are told apart. -/
theorem ending_inj {text text' : List Char} (htext : Unjoined text) (htext' : Unjoined text')
    {a b : Option Association} (h : text ++ ending a = text' ++ ending b) :
    text = text' ∧ a.map Association.content = b.map Association.content := by
  have hjoined (text : List Char) (a : Association) : text ++ ending (some a) =
      (text ++ (" <-> nsid ".toList ++ (digits a.nsid.toNat ++ " ".toList))) ++ '(' :: reference a := by
    rw [ending, toList_text, ← List.append_assoc]
  cases a with
  | none =>
    rw [ending, List.append_nil] at h
    cases b with
    | none => exact ⟨by rw [h, ending, List.append_nil], rfl⟩
    | some b =>
      rw [hjoined] at h
      exact absurd rfl (htext _ _ h (not_mem_reference b))
  | some a =>
    cases b with
    | none =>
      rw [ending, List.append_nil, hjoined] at h
      exact absurd rfl (htext' _ _ h.symm (not_mem_reference a))
    | some b =>
      rw [hjoined, hjoined] at h
      obtain ⟨hfront, hreference⟩ := cut_last (not_mem_reference a) (not_mem_reference b) h
      obtain ⟨hsame, hnumber⟩ := number_inj hfront
      obtain ⟨hseq, hdelay⟩ := reference_inj hreference
      refine ⟨hsame, ?_⟩
      simp only [Option.map_some, Association.content, UInt32.toNat_inj.mp hnumber, hseq, hdelay]

/-- The ids of a process event, from behind the parenthesis on. -/
def ids (e : Event) : List Char :=
  "PID: ".toList ++ (digits e.pid.toNat ++ (", TID: ".toList ++ (digits e.tid.toNat ++
    (", PPID: ".toList ++ (digits e.parentPid.toNat ++ (", UID: ".toList ++ (digits e.uid.toNat ++
      (", GID: ".toList ++ (digits e.gid.toNat ++ ")".toList)))))))))

/-- The number of a notification. -/
def number : Option NsId → List Char
  | some nsid => digits nsid.toNat
  | none => "unknown".toList

/-- What the number in a notification's body adds. -/
def bodyNumber : Option Int32 → List Char
  | some nsid => ' ' :: '(' :: ("NETNSA_NSID ".toList ++ ((toString nsid.toInt).toList ++ ")".toList))
  | none => []

/-- The word in brackets at the beginning of an occurrence's text. -/
def tag : Occurrence → String
  | .process e => e.kind.name
  | .nsid n => n.change.name
  | .rejected _ => "DECODE_FAILURE"

/-- What follows the word in brackets. -/
def body : Occurrence → List Char
  | .process e => (e.command.text.toList ++ " ".toList) ++ '(' :: ids e
  | .nsid n => "nsid ".toList ++ (number n.nsid ++ bodyNumber n.bodyNsid)
  | .rejected error => error.message.toList

/-- The text of an occurrence is a word in brackets and what follows it. -/
theorem toList_text_occurrence (o : Occurrence) :
    o.text.toList = '[' :: ((tag o).toList ++ ']' :: ' ' :: body o) := by
  have hopen : "[".toList = ['['] := rfl
  have hclose : "] ".toList = [']', ' '] := rfl
  cases o with
  | process e =>
    have hids : " (PID: ".toList = " ".toList ++ '(' :: "PID: ".toList := rfl
    change e.text.toList = _
    unfold Event.text tag body ids
    simp only [String.toList_append, toList_toString, hopen, hclose, hids, List.append_assoc,
      List.cons_append, List.nil_append]
  | nsid n =>
    have hnsid : "] nsid ".toList = ']' :: ' ' :: "nsid ".toList := rfl
    have hbody : " (NETNSA_NSID ".toList = ' ' :: '(' :: "NETNSA_NSID ".toList := rfl
    have hnone : "".toList = [] := rfl
    obtain ⟨change, nsid, bodyNsid⟩ := n
    change (NsidNotification.text _).toList = _
    unfold NsidNotification.text tag body number bodyNumber
    cases nsid <;> cases bodyNsid <;>
      simp only [String.toList_append, toList_toString, hopen, hnsid, hbody, hnone,
        List.append_assoc, List.cons_append, List.nil_append, List.append_nil]
  | rejected error =>
    have hframe : "[DECODE_FAILURE] ".toList = '[' :: ("DECODE_FAILURE".toList ++ [']', ' ']) := rfl
    change ("[DECODE_FAILURE] " ++ error.message).toList = _
    unfold tag body
    simp only [String.toList_append, hframe, List.append_assoc, List.cons_append, List.nil_append]

section Tags

/-- A kind is known by its name. -/
theorem kind_eq_of_name {k k' : Kind} (h : k.name = k'.name) : k = k' := by
  revert h
  cases k <;> cases k' <;> decide

/-- A change is known by its name. -/
theorem change_eq_of_name {c c' : NsidChange} (h : c.name = c'.name) : c = c' := by
  revert h
  cases c <;> cases c' <;> decide

/-- A kind is never called like a change. -/
theorem kind_name_ne (k : Kind) (c : NsidChange) : k.name ≠ c.name := by
  cases k <;> cases c <;> decide

/-- A record that could not be read is never called like a kind. -/
theorem kind_name_ne_failure (k : Kind) : k.name ≠ "DECODE_FAILURE" := by
  cases k <;> decide

/-- A record that could not be read is never called like a change. -/
theorem change_name_ne_failure (c : NsidChange) : c.name ≠ "DECODE_FAILURE" := by
  cases c <;> decide

/-- The word in brackets is plain. -/
theorem plain_tag (o : Occurrence) : (tag o).toList.all plain = true := by
  cases o with
  | process e =>
    change e.kind.name.toList.all plain = true
    cases e.kind <;> decide
  | nsid n =>
    change n.change.name.toList.all plain = true
    cases n.change <;> decide
  | rejected error =>
    change "DECODE_FAILURE".toList.all plain = true
    decide

/-- The word in brackets holds neither a bracket nor a parenthesis. -/
theorem not_mem_tag (o : Occurrence) : ']' ∉ (tag o).toList ∧ '(' ∉ (tag o).toList :=
  ⟨not_mem_of_plain rfl (plain_tag o), not_mem_of_plain rfl (plain_tag o)⟩

end Tags

section Bodies

/-- A number behind a label is cut off in one way. -/
theorem cut_labelled {label rest rest' : List Char} {m n : UInt32} (hrest : Breaks Char.isDigit rest)
    (hrest' : Breaks Char.isDigit rest')
    (h : label ++ (digits m.toNat ++ rest) = label ++ (digits n.toNat ++ rest')) :
    m = n ∧ rest = rest' := by
  obtain ⟨hnumber, hsame⟩ := cut_number hrest hrest' (List.append_cancel_left h)
  exact ⟨UInt32.toNat_inj.mp hnumber, hsame⟩

/-- The ids of a process event can be read off their text. -/
theorem ids_inj {e f : Event} (h : ids e = ids f) :
    e.pid = f.pid ∧ e.tid = f.tid ∧ e.parentPid = f.parentPid ∧ e.uid = f.uid ∧ e.gid = f.gid := by
  unfold ids at h
  obtain ⟨hpid, h⟩ := cut_labelled (breaks_append rfl _) (breaks_append rfl _) h
  obtain ⟨htid, h⟩ := cut_labelled (breaks_append rfl _) (breaks_append rfl _) h
  obtain ⟨hparent, h⟩ := cut_labelled (breaks_append rfl _) (breaks_append rfl _) h
  obtain ⟨huid, h⟩ := cut_labelled (breaks_append rfl _) (breaks_append rfl _) h
  obtain ⟨hgid, -⟩ := cut_labelled (breaks_of_head rfl) (breaks_of_head rfl) h
  exact ⟨hpid, htid, hparent, huid, hgid⟩

/-- The ids of a process event are plain. -/
theorem plain_ids (e : Event) : (ids e).all plain = true := by
  unfold ids
  simp only [List.all_append, plain_digits]
  decide

/-- The ids of a process event hold no parenthesis. -/
theorem not_mem_ids (e : Event) : '(' ∉ ids e :=
  not_mem_of_plain rfl (plain_ids e)

/-- The number of a notification can be read off its text. -/
theorem number_eq {nsid nsid' : Option NsId} (h : number nsid = number nsid') : nsid = nsid' := by
  have hunknown (n : Nat) : digits n ≠ "unknown".toList := fun hsame =>
    not_mem_digits (c := 'u') rfl n (hsame ▸ List.mem_cons_self)
  cases nsid with
  | none =>
    cases nsid' with
    | none => rfl
    | some nsid' => exact absurd h.symm (hunknown _)
  | some nsid =>
    cases nsid' with
    | none => exact absurd h (hunknown _)
    | some nsid' => rw [UInt32.toNat_inj.mp (digits_inj h)]

/-- The number in the body of a notification can be read off its text. -/
theorem bodyNumber_inj {nsid nsid' : Option Int32} (h : bodyNumber nsid = bodyNumber nsid') :
    nsid = nsid' := by
  cases nsid with
  | none =>
    cases nsid' with
    | none => rfl
    | some nsid' => cases h
  | some nsid =>
    cases nsid' with
    | none => cases h
    | some nsid' =>
      have htexts := List.append_cancel_left (List.cons.inj (List.cons.inj h).2).2
      have hnumber := List.append_cancel_right htexts
      rw [toList_toString_int, toList_toString_int] at hnumber
      rw [Int32.toInt_inj.mp (signed_inj hnumber)]

/-- The number of a notification is plain. -/
theorem plain_number (nsid : Option NsId) : (number nsid).all plain = true := by
  cases nsid with
  | none => rfl
  | some nsid => exact plain_digits nsid.toNat

/-- No blank occurs in the number of a notification. -/
theorem blank_not_mem_number (nsid : Option NsId) : ' ' ∉ number nsid := by
  cases nsid with
  | none =>
    change ' ' ∉ "unknown".toList
    decide
  | some nsid => exact not_mem_digits rfl _

/-- What follows the number of a notification begins with a blank, if anything follows. -/
theorem breaks_bodyNumber (nsid : Option Int32) : Breaks (· != ' ') (bodyNumber nsid) := by
  cases nsid with
  | none => exact breaks_nil
  | some nsid => exact breaks_cons rfl

/-- What follows the parenthesis where a record has the wrong length. -/
def lengths (expected actual : Nat) : List Char :=
  "expected ".toList ++ (digits expected ++ (" bytes, got ".toList ++ (digits actual ++ ")".toList)))

/-- The message about a wrong length. -/
theorem toList_message_length (expected actual : Nat) :
    (SchemaError.length expected actual).message.toList =
      "record length mismatch ".toList ++ '(' :: lengths expected actual := by
  have hopen : "record length mismatch (expected ".toList =
      "record length mismatch ".toList ++ '(' :: "expected ".toList := rfl
  unfold SchemaError.message lengths
  simp only [String.toList_append, toList_toString, hopen, List.append_assoc, List.cons_append]

/-- The message about an unknown kind. -/
theorem toList_message_unknownKind (code : UInt32) :
    (SchemaError.unknownKind code).message.toList =
      "unknown event kind ".toList ++ digits code.toNat := by
  unfold SchemaError.message
  simp only [String.toList_append, toList_toString]

/-- The two lengths are plain. -/
theorem plain_lengths (expected actual : Nat) : (lengths expected actual).all plain = true := by
  unfold lengths
  simp only [List.all_append, plain_digits]
  decide

/-- Why a record could not be read can be read off the message. -/
theorem message_inj {e f : SchemaError} (h : e.message.toList = f.message.toList) : e = f := by
  have hdiffer (expected actual : Nat) (code : UInt32) :
      "record length mismatch ".toList ++ '(' :: lengths expected actual ≠
        "unknown event kind ".toList ++ digits code.toNat := by
    intro hsame
    have hhead := congrArg List.head? hsame
    revert hhead
    simp
  cases e with
  | length expected actual =>
    rw [toList_message_length] at h
    cases f with
    | length expected' actual' =>
      rw [toList_message_length] at h
      have hlengths := (List.cons.inj (List.append_cancel_left h)).2
      unfold lengths at hlengths
      obtain ⟨hexpected, hrest⟩ := cut_number (breaks_append rfl _)
        (breaks_append rfl _) (List.append_cancel_left hlengths)
      obtain ⟨hactual, -⟩ := cut_number (breaks_of_head rfl) (breaks_of_head rfl)
        (List.append_cancel_left hrest)
      rw [hexpected, hactual]
    | unknownKind code =>
      rw [toList_message_unknownKind] at h
      exact absurd h (hdiffer _ _ _)
  | unknownKind code =>
    rw [toList_message_unknownKind] at h
    cases f with
    | length expected actual =>
      rw [toList_message_length] at h
      exact absurd h.symm (hdiffer _ _ _)
    | unknownKind code' =>
      rw [toList_message_unknownKind] at h
      rw [UInt32.toNat_inj.mp (digits_inj (List.append_cancel_left h))]

end Bodies

/-- What follows the word in brackets names no entry, whatever a process is called. -/
theorem unjoined_body (o : Occurrence) : Unjoined (body o) := by
  cases o with
  | process e =>
    refine unjoined_append (not_mem_ids e) ?_
    unfold ids
    simp
  | nsid n =>
    obtain ⟨change, nsid, bodyNsid⟩ := n
    have hnumber := not_mem_of_plain (c := '(') rfl (plain_number nsid)
    cases bodyNsid with
    | none =>
      refine unjoined_of_not_mem ?_
      change '(' ∉ "nsid ".toList ++ (number nsid ++ [])
      simp [hnumber]
    | some bodyNsid =>
      have hsigned := not_mem_of_plain (c := '(') rfl (plain_signed bodyNsid.toInt)
      have hsplit : body (.nsid ⟨change, nsid, some bodyNsid⟩) =
          ("nsid ".toList ++ (number nsid ++ [' '])) ++
            '(' :: ("NETNSA_NSID ".toList ++ (signed bodyNsid.toInt ++ ")".toList)) := by
        unfold body bodyNumber
        simp only [toList_toString_int, List.append_assoc, List.cons_append, List.nil_append]
      rw [hsplit]
      refine unjoined_append ?_ ?_ <;> simp [hsigned]
  | rejected error =>
    change Unjoined error.message.toList
    cases error with
    | length expected actual =>
      rw [toList_message_length]
      refine unjoined_append (not_mem_of_plain rfl (plain_lengths expected actual)) ?_
      unfold lengths
      simp
    | unknownKind code =>
      have hdigits := not_mem_of_plain (c := '(') rfl (plain_digits code.toNat)
      rw [toList_message_unknownKind]
      refine unjoined_of_not_mem ?_
      simp [hdigits]

/-- The text of an occurrence names no entry. -/
theorem unjoined_text (o : Occurrence) : Unjoined o.text.toList := by
  obtain ⟨-, htag⟩ := not_mem_tag o
  have hframe : o.text.toList = ('[' :: ((tag o).toList ++ "] ".toList)) ++ body o := by
    rw [toList_text_occurrence, List.cons_append, List.append_assoc]
    rfl
  rw [hframe]
  refine (unjoined_body o).append_left ?_
  simp [htag]

/-- What follows the word in brackets tells the rest of an occurrence. -/
theorem content_eq_of_body {o o' : Occurrence} (htag : tag o = tag o') (hbody : body o = body o') :
    o.content = o'.content := by
  cases o with
  | process e =>
    cases o' with
    | process f =>
      obtain ⟨hcommand, hids⟩ := cut_last (not_mem_ids e) (not_mem_ids f) hbody
      have hname := String.toList_inj.mp (List.append_cancel_right hcommand)
      obtain ⟨hpid, htid, hparent, huid, hgid⟩ := ids_inj hids
      simp only [Occurrence.content, kind_eq_of_name htag, hname, hpid, htid, hparent, huid, hgid]
    | nsid n => exact absurd htag (kind_name_ne _ _)
    | rejected error => exact absurd htag (kind_name_ne_failure _)
  | nsid n =>
    cases o' with
    | process f => exact absurd htag.symm (kind_name_ne _ _)
    | nsid n' =>
      have hword (nsid : Option NsId) : ∀ c ∈ number nsid, (c != ' ') = true :=
        fun c hc => bne_iff_ne.mpr fun hsame => blank_not_mem_number nsid (hsame ▸ hc)
      obtain ⟨hnumber, hrest⟩ := cut_front (hword n.nsid) (hword n'.nsid)
        (breaks_bodyNumber n.bodyNsid) (breaks_bodyNumber n'.bodyNsid) (List.append_cancel_left hbody)
      have hsame : n = n' := by
        obtain ⟨change, nsid, bodyNsid⟩ := n
        obtain ⟨change', nsid', bodyNsid'⟩ := n'
        rw [NsidNotification.mk.injEq]
        exact ⟨change_eq_of_name htag, number_eq hnumber, bodyNumber_inj hrest⟩
      rw [hsame]
    | rejected error => exact absurd htag (change_name_ne_failure _)
  | rejected error =>
    cases o' with
    | process f => exact absurd htag.symm (kind_name_ne_failure _)
    | nsid n' => exact absurd htag.symm (change_name_ne_failure _)
    | rejected error' => rw [message_inj hbody]

/-- The text of an occurrence shows nothing but its content. -/
theorem text_eq_of_content {o o' : Occurrence} (h : o.content = o'.content) : o.text = o'.text := by
  cases o with
  | process e =>
    cases o' with
    | process f =>
      simp only [Occurrence.content, Content.process.injEq] at h
      obtain ⟨hkind, hcommand, hpid, htid, hparent, huid, hgid⟩ := h
      change e.text = f.text
      unfold Event.text
      rw [hkind, hcommand, hpid, htid, hparent, huid, hgid]
    | nsid n => cases h
    | rejected error => cases h
  | nsid n =>
    cases o' with
    | process f => cases h
    | nsid n' => rw [Content.nsid.inj h]
    | rejected error => cases h
  | rejected error =>
    cases o' with
    | process f => cases h
    | nsid n => cases h
    | rejected error' => rw [Content.rejected.inj h]

/-- The text of an occurrence tells all of its content, and nothing else. -/
theorem text_eq_iff (o o' : Occurrence) : o.text = o'.text ↔ o.content = o'.content := by
  constructor
  · intro h
    have hlists := congrArg String.toList h
    rw [toList_text_occurrence, toList_text_occurrence] at hlists
    obtain ⟨htag, hrest⟩ := cut_first (not_mem_tag o).1 (not_mem_tag o').1 (List.cons.inj hlists).2
    exact content_eq_of_body (String.toList_inj.mp htag) (List.cons.inj hrest).2
  · exact text_eq_of_content

/-- The end of a line shows nothing but what it tells of the association. -/
theorem ending_eq_of_content {a b : Option Association}
    (h : a.map Association.content = b.map Association.content) : ending a = ending b := by
  cases a with
  | none =>
    cases b with
    | none => rfl
    | some b => cases h
  | some a =>
    cases b with
    | none => cases h
    | some b =>
      simp only [Option.map_some, Association.content, Option.some.injEq, Prod.mk.injEq] at h
      obtain ⟨hnsid, hseq, hdelay⟩ := h
      change a.text.toList = b.text.toList
      unfold Association.text
      rw [hnsid, hseq, hdelay]

end Line

/-- A line is the number of its entry, the text of the occurrence, and the association if there is
one. -/
theorem Entry.toList_line (e : Entry) : e.line.toList =
    '#' :: (digits e.seq ++ ' ' :: (e.occurrence.text.toList ++ Line.ending e.association)) := by
  have hopen : "#".toList = ['#'] := rfl
  have hblank : " ".toList = [' '] := rfl
  have hnone : "".toList = [] := rfl
  unfold Entry.line Line.ending
  cases e.association <;>
    simp only [String.toList_append, toList_toString, hopen, hblank, hnone, List.append_assoc,
      List.cons_append, List.nil_append, List.append_nil]

/-- Two entries have the same line exactly when they have the same number and tell the same of their
occurrence and of their association, whatever the processes are called. -/
theorem Entry.line_eq_iff (e f : Entry) : e.line = f.line ↔
    e.seq = f.seq ∧ e.occurrence.content = f.occurrence.content ∧
      e.association.map Association.content = f.association.map Association.content := by
  constructor
  · intro h
    have hlists := congrArg String.toList h
    rw [toList_line, toList_line] at hlists
    obtain ⟨hseq, hrest⟩ := cut_number (breaks_cons rfl) (breaks_cons rfl) (List.cons.inj hlists).2
    obtain ⟨htext, hassociation⟩ := Line.ending_inj (Line.unjoined_text _) (Line.unjoined_text _)
      (List.cons.inj hrest).2
    exact ⟨hseq, (Line.text_eq_iff _ _).mp (String.toList_inj.mp htext), hassociation⟩
  · rintro ⟨hseq, hcontent, hassociation⟩
    rw [← String.toList_inj, toList_line, toList_line, hseq, Line.text_eq_of_content hcontent,
      Line.ending_eq_of_content hassociation]

end NetnsWatch
