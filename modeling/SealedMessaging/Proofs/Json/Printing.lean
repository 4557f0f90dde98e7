import SealedMessaging.Proofs.Json.Pieces

/-!
# What is printed reads back

* `readString_append`: a string without quotes, backslashes and controls.
* `PrintsAs`: a text that reads as a value where a member of an object stands.
* `PrintedMember.toMember`: members as they are written are pieces of an object.
* `readValue_printObject`: an object whose members read back, and `printsAs_printObject`, so that
  objects can stand inside each other.
-/

namespace SealedMessaging.Json

/-! ## Strings -/

/-- A text that stands for itself between quotes. -/
def Plain (s : Text) : Prop :=
  ∀ c ∈ s, c ≠ '"' ∧ c ≠ '\\' ∧ 0x20 ≤ c.toNat

instance (s : Text) : Decidable (Plain s) := List.decidableBAll _ s

theorem Plain.stringAt {s : Text} (hs : Plain s) (rest : Text) : StringAt (s ++ '"' :: rest) s rest := by
  induction s with
  | nil => exact .quote
  | cons c s ih =>
    obtain ⟨hquote, hslash, hcontrol⟩ := hs c List.mem_cons_self
    exact .plain hquote hslash (Nat.not_lt.2 hcontrol) (ih fun d hd => hs d (List.mem_cons_of_mem _ hd))

/-- **A plain string reads back** behind its opening quote. -/
theorem readString_append {s : Text} (hs : Plain s) (rest : Text) :
    readString (s ++ '"' :: rest) = .ok (String.ofList s, rest) := by
  rw [readString_eq_ok_iff, String.toList_ofList]
  exact hs.stringAt rest

theorem printString_append (s rest : Text) : printString s ++ rest = '"' :: (s ++ '"' :: rest) := by
  unfold printString
  simp

theorem readValue_printString {s : Text} (hs : Plain s) (depth : Nat) (rest : Text) :
    readValue depth (printString s ++ rest) = .ok (.string (String.ofList s), rest) := by
  rw [printString_append]
  have hscalar : readScalar ('"' :: (s ++ '"' :: rest)) = .ok (.string (String.ofList s), rest) := by
    show (readString (s ++ '"' :: rest) >>= fun r => pure (Value.string r.1, r.2)) = _
    rw [readString_append hs]
    rfl
  unfold readValue
  exact hscalar

/-! ## Objects -/

/-- A text that reads as a value inside an object, where a comma or the closing bracket follows. -/
def PrintsAs (depth : Nat) (t : Text) (v : Value) : Prop :=
  ∀ c rest, c = ',' ∨ c = '\x7d' → readValue depth (t ++ c :: rest) = .ok (v, c :: rest)

/-- A text that is read before a comma is read from its own characters, so it is read with anything
behind it that does not belong to it. -/
theorem PrintsAs.standsFor {depth : Nat} {t : Text} {v : Value} (h : PrintsAs depth t v) :
    StandsFor depth t v := by
  intro w hw
  obtain ⟨x, hx, hread⟩ := cut_readValue depth _ _ _ (h ',' [] (Or.inl rfl))
  obtain rfl := List.append_cancel_right hx
  exact ⟨[], rfl, hread w (hw.follows_append (b := []) rfl)⟩

/-- A member as it is written: its name, its value as it is written, and the value. -/
structure PrintedMember (depth : Nat) where
  name : Text
  text : Text
  value : Value
  plain : Plain name
  reads : PrintsAs depth text value

namespace PrintedMember

variable {depth : Nat}

/-- A member as it is written. -/
def written (m : PrintedMember depth) : Text := printMember (m.name, m.text)

/-- The name and the value that are read again. -/
def entry (m : PrintedMember depth) : String × Value := (String.ofList m.name, m.value)

/-- A member as it is written is a piece of an object, its value being read wherever a value
stands. -/
def toMember (m : PrintedMember depth) : Member depth where
  front := printString m.name ++ [':']
  name := String.ofList m.name
  item := ⟨m.text, m.value, m.reads.standsFor⟩
  heads t := by
    refine ⟨m.name ++ '"' :: ':' :: t, ':' :: t, ?_, readString_append m.plain _, rfl⟩
    rw [List.append_assoc, printString_append]
    rfl

theorem text_toMember (m : PrintedMember depth) : m.toMember.text = m.written := by
  unfold Member.text toMember written printMember
  rw [List.append_assoc]
  rfl

/-- A printed object is its members put together. -/
theorem printObject_eq (ms : List (PrintedMember depth)) :
    printObject (ms.map fun m => (m.name, m.text)) =
      objectText ((ms.map toMember).map Member.text) := by
  have hpieces : (ms.map fun m => (m.name, m.text)).map printMember =
      (ms.map toMember).map Member.text := by
    rw [List.map_map, List.map_map]
    exact List.map_congr_left fun m _ => (text_toMember m).symm
  unfold printObject objectText
  rw [hpieces]

end PrintedMember

/-- The members of a printed object, behind its opening bracket. -/
theorem exists_readEntries_printObject {depth : Nat} (ms : List (PrintedMember depth))
    (rest : Text) :
    ∃ t, printObject (ms.map fun m => (m.name, m.text)) ++ rest = '\x7b' :: t ∧
      readEntries (readValue depth) (t.length + 1) true t =
        .ok (ms.map PrintedMember.entry, rest) := by
  obtain ⟨t, ht, hread⟩ := exists_readEntries_object (ms.map PrintedMember.toMember)
    (rfl : skipBlanks [] = []) rest
  rw [List.map_map] at hread
  refine ⟨t, ?_, hread⟩
  rw [PrintedMember.printObject_eq]
  exact ht

/-- **A printed object reads back** as its members, gathered. -/
theorem readValue_printObject {depth : Nat} (ms : List (PrintedMember depth)) (rest : Text) :
    readValue (depth + 1) (printObject (ms.map fun m => (m.name, m.text)) ++ rest) =
      .ok (.object (gather [] (ms.map PrintedMember.entry)), rest) := by
  obtain ⟨t, hprinted, hentries⟩ := exists_readEntries_printObject ms rest
  rw [hprinted]
  exact readValue_object rfl hentries

theorem printsAs_printObject {depth : Nat} (ms : List (PrintedMember depth)) :
    PrintsAs (depth + 1) (printObject (ms.map fun m => (m.name, m.text)))
      (.object (gather [] (ms.map PrintedMember.entry))) :=
  fun c rest _ => readValue_printObject ms (c :: rest)

theorem printsAs_printString {s : Text} (hs : Plain s) (depth : Nat) :
    PrintsAs depth (printString s) (.string (String.ofList s)) :=
  fun c rest _ => readValue_printString hs depth (c :: rest)

/-- A digit by itself reads as a number. -/
theorem printsAs_digit {depth : Nat} :
    PrintsAs depth ['0'] (.number (.integer 0)) ∧ PrintsAs depth ['1'] (.number (.integer 1)) := by
  constructor
  all_goals
    intro c rest hc
    rcases hc with rfl | rfl
    all_goals
      unfold readValue
      rfl

end SealedMessaging.Json
