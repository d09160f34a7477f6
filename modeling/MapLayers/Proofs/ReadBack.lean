import MapLayers.Proofs.KeyedDocuments
import MapLayers.Proofs.PrintedNumbers

/-!
# Documents are read back

A keyed document that has been written is read back as it was, with the fields of its objects in the order in
which they have been written. What is read ends where the text of the value ends, whatever stands behind it.
-/

namespace MapLayers.Json

open Decimal

section Texts

variable {acc cs rest : List Char}

/-- Behind a text in quotes no escape is cut off. -/
def EscapesWhole (cs : List Char) : Prop :=
  ∀ e f g h rest, cs = '\\' :: 'u' :: e :: f :: g :: h :: rest → hexCode? e f g h ≠ none

/-- An escaped unit that is half of no pair. -/
theorem readText_unit {a b c d : Char} {code : Nat} (hcode : hexCode? a b c d = some code)
    (hscalar : isSurrogate code = false) (hrest : EscapesWhole rest) :
    readText acc ('\\' :: 'u' :: a :: b :: c :: d :: rest) = readText (Char.ofNat code :: acc) rest := by
  have hhigh : isHighSurrogate code = false := by
    unfold isSurrogate at hscalar
    simp_all
  conv_lhs => unfold readText
  split
  · next heq => simp at heq
  · next heq => simp at heq
  · next heq =>
    simp only [List.cons.injEq, true_and] at heq
    obtain ⟨rfl, rfl, rfl, rfl, rfl⟩ := heq
    obtain ⟨low, hlow⟩ := Option.ne_none_iff_exists'.mp (hrest _ _ _ _ _ rfl)
    simp [hcode, hlow, hhigh, hscalar]
  · next heq =>
    simp only [List.cons.injEq, true_and] at heq
    obtain ⟨rfl, rfl, rfl, rfl, rfl⟩ := heq
    simp [hcode, hscalar]
  · next hnot heq =>
    simp only [List.cons.injEq, true_and] at heq
    exact absurd heq.2.symm (hnot a b c d rest heq.1.symm)
  · next hnot heq =>
    simp only [List.cons.injEq] at heq
    exact absurd heq.2.symm (hnot 'u' _ heq.1.symm)

theorem readText_escape {c e : Char} (hescape : escape? c = some e) (hc : c ≠ 'u') :
    readText acc ('\\' :: c :: rest) = readText (e :: acc) rest := by
  simp [readText, hescape, hc]

theorem readText_plain {c : Char} (hquote : c ≠ '"') (hslash : c ≠ '\\') (hcode : ¬c.toNat < 32) :
    readText acc (c :: rest) = readText (c :: acc) rest := by
  conv_lhs => unfold readText
  split <;> simp_all

/-- The code of a control character. -/
theorem hexText_control {n : Nat} (h : n < 32) : ∃ c d, Text.hexText 4 n = ['0', '0', c, d] ∧
    hexCode? '0' '0' c d = some n := by
  have hall : ∀ n < 32, hexCode? '0' '0' (Nat.digitChar (n / 16)) (Nat.digitChar (n % 16)) = some n := by
    decide
  have htexts : ∀ n < 32, Text.hexText 4 n =
      ['0', '0', Nat.digitChar (n / 16), Nat.digitChar (n % 16)] := by
    decide
  exact ⟨_, _, htexts n h, hall n h⟩

/-- A character is written as an escape of two characters, as the escape of its code, or as itself. -/
theorem escapedChar_cases (c : Char) :
    (∃ e, escapedChar c = ['\\', e] ∧ escape? e = some c ∧ e ≠ 'u') ∨
    (∃ x y, escapedChar c = ['\\', 'u', '0', '0', x, y] ∧ hexCode? '0' '0' x y = some c.toNat ∧
      c.toNat < 32) ∨
    (escapedChar c = [c] ∧ c ≠ '"' ∧ c ≠ '\\' ∧ ¬c.toNat < 32) := by
  unfold escapedChar
  by_cases hquote : c = '"'
  · exact .inl ⟨'"', if_pos hquote, congrArg some hquote.symm, by decide⟩
  rw [if_neg hquote]
  by_cases hslash : c = '\\'
  · exact .inl ⟨'\\', if_pos hslash, congrArg some hslash.symm, by decide⟩
  rw [if_neg hslash]
  by_cases hline : c = '\n'
  · exact .inl ⟨'n', if_pos hline, congrArg some hline.symm, by decide⟩
  rw [if_neg hline]
  by_cases hreturn : c = '\r'
  · exact .inl ⟨'r', if_pos hreturn, congrArg some hreturn.symm, by decide⟩
  rw [if_neg hreturn]
  by_cases htab : c = '\t'
  · exact .inl ⟨'t', if_pos htab, congrArg some htab.symm, by decide⟩
  rw [if_neg htab]
  by_cases hback : c.toNat = 8
  · obtain rfl : c = '\x08' := Char.toNat_inj.mp hback
    exact .inl ⟨'b', rfl, rfl, by decide⟩
  rw [if_neg hback]
  by_cases hfeed : c.toNat = 12
  · obtain rfl : c = '\x0c' := Char.toNat_inj.mp hfeed
    exact .inl ⟨'f', rfl, rfl, by decide⟩
  rw [if_neg hfeed]
  by_cases hcontrol : c.toNat < 32
  · obtain ⟨x, y, htext, hcode⟩ := hexText_control hcontrol
    exact .inr (.inl ⟨x, y, by rw [if_pos hcontrol, htext], hcode, hcontrol⟩)
  · exact .inr (.inr ⟨if_neg hcontrol, hquote, hslash, hcontrol⟩)

/-- A character is read back from its escape. -/
theorem readText_escapedChar (c : Char) (hrest : EscapesWhole rest) :
    readText acc (escapedChar c ++ rest) = readText (c :: acc) rest := by
  rcases escapedChar_cases c with ⟨e, hchars, hescape, hu⟩ | ⟨x, y, hchars, hcode, hcontrol⟩ |
      ⟨hchars, hquote, hslash, hcontrol⟩ <;> rw [hchars]
  · exact readText_escape hescape hu
  · have hscalar : isSurrogate c.toNat = false := by
      simp [isSurrogate, isHighSurrogate, isLowSurrogate]
      omega
    have hread : readText acc ('\\' :: 'u' :: '0' :: '0' :: x :: y :: rest) =
        readText (Char.ofNat c.toNat :: acc) rest := readText_unit hcode hscalar hrest
    rw [Char.ofNat_toNat] at hread
    exact hread
  · exact readText_plain hquote hslash hcontrol

theorem escapesWhole_escapedChar (c : Char) (rest : List Char) :
    EscapesWhole (escapedChar c ++ rest) := by
  intro e f g h others heq
  rcases escapedChar_cases c with ⟨u, hchars, -, hu⟩ | ⟨x, y, hchars, hcode, -⟩ |
      ⟨hchars, -, hslash, -⟩ <;> rw [hchars] at heq
  · simp only [List.cons_append, List.nil_append, List.cons.injEq, true_and] at heq
    exact absurd heq.1 hu
  · simp only [List.cons_append, List.nil_append, List.cons.injEq, true_and] at heq
    obtain ⟨rfl, rfl, rfl, rfl, -⟩ := heq
    simp [hcode]
  · exact absurd (List.cons.inj heq).1 hslash

theorem escapesWhole_chars (cs rest : List Char) :
    EscapesWhole (cs.flatMap escapedChar ++ '"' :: rest) := by
  cases cs with
  | nil =>
    intro e f g h others heq
    simp at heq
  | cons c cs =>
    rw [List.flatMap_cons, List.append_assoc]
    exact escapesWhole_escapedChar c _

theorem readText_chars (acc cs rest : List Char) :
    readText acc (cs.flatMap escapedChar ++ '"' :: rest) = .ok (String.ofList (acc.reverse ++ cs), rest) := by
  induction cs generalizing acc with
  | nil => simp [readText]
  | cons c cs ih =>
    rw [List.flatMap_cons, List.append_assoc, readText_escapedChar c (escapesWhole_chars cs rest), ih]
    simp

theorem readText_textChars (s : String) (rest : List Char) :
    ∃ quoted, textChars s ++ rest = '"' :: quoted ∧ readText [] quoted = .ok (s, rest) := by
  refine ⟨s.toList.flatMap escapedChar ++ '"' :: rest, by simp [textChars], ?_⟩
  rw [readText_chars]
  simp

end Texts

theorem skipSpace_lineBreak (indent d : Nat) (cs : List Char) :
    skipSpace (lineBreak indent d ++ cs) = skipSpace cs := by
  have hspaces : ∀ c ∈ lineBreak indent d, isSpace c = true := by
    intro c hc
    rcases List.mem_cons.mp hc with rfl | hc
    · rfl
    · rw [List.eq_of_mem_replicate hc]
      rfl
  exact List.dropWhile_append_of_pos hspaces

theorem readValue_quote (fuel depth : Nat) (cs : List Char) :
    readValue (fuel + 1) depth ('"' :: cs) =
      (do let (s, rest) ← readText [] cs; return (text s, rest)) := rfl

theorem readValue_bracket (fuel depth : Nat) (cs : List Char) :
    readValue (fuel + 1) (depth + 1) ('[' :: cs) = match skipSpace cs with
      | ']' :: rest => .ok (list [], rest)
      | rest => readItems fuel depth [] rest := rfl

theorem readValue_brace (fuel depth : Nat) (cs : List Char) :
    readValue (fuel + 1) (depth + 1) ('\x7b' :: cs) = match skipSpace cs with
      | '\x7d' :: rest => .ok (object [], rest)
      | rest => readFields fuel depth [] rest := rfl

/-- A value starts with neither a space nor the end of a list. -/
theorem start_of_readValue {fuel depth : Nat} {cs : List Char} {r : Json × List Char}
    (h : readValue fuel depth cs = .ok r) : ∀ c ∈ cs.head?, isSpace c = false ∧ c ≠ ']' := by
  intro c hc
  obtain ⟨rest, rfl⟩ : ∃ rest, cs = c :: rest := by
    cases cs with
    | nil => simp at hc
    | cons d rest => exact ⟨rest, by rw [Option.some.inj hc]⟩
  by_contra hwrong
  have hcases : c = ' ' ∨ c = '\t' ∨ c = '\n' ∨ c = '\r' ∨ c = ']' := by
    simp only [isSpace, Bool.or_eq_false_iff, decide_eq_false_iff_not] at hwrong
    tauto
  cases fuel with
  | zero => exact nomatch (h : Except.error ReadFault.syntaxFault = .ok r)
  | succ fuel =>
    have hnumber : readValue (fuel + 1) depth (c :: rest) = readNumber false (c :: rest) := by
      rcases hcases with rfl | rfl | rfl | rfl | rfl <;> rfl
    rw [hnumber] at h
    rcases hcases with rfl | rfl | rfl | rfl | rfl <;> simp [readNumber, splitWhole] at h

theorem skipSpace_of_readValue {fuel depth : Nat} {cs : List Char} {r : Json × List Char}
    (h : readValue fuel depth cs = .ok r) : skipSpace cs = cs := by
  cases cs with
  | nil => rfl
  | cons c rest =>
    have hc := (start_of_readValue h c rfl).1
    simp [skipSpace, hc]

section Values

variable {indent d fuel depth : Nat} {rest cs : List Char}

/-- A document is read back from its text, with whatever may follow. -/
def ReadsBack (document : Json) : Prop :=
  ∀ indent d fuel depth rest, document.depth ≤ depth → (writeChars indent d document).length < fuel →
    EndsValue rest →
    readValue fuel depth (writeChars indent d document ++ rest) = .ok (document, rest)

theorem endsValue_lineBreak (indent d : Nat) (cs : List Char) : EndsValue (lineBreak indent d ++ cs) := by
  intro c hc
  obtain rfl : '\n' = c := by simpa [lineBreak] using hc
  exact .inr rfl

theorem endsValue_comma (cs : List Char) : EndsValue (',' :: cs) := by
  intro c hc
  exact .inl (Option.some.inj hc).symm

theorem endsValue_items (indent d : Nat) (items : List Json) {behind : List Char}
    (h : EndsValue behind) : EndsValue (writeItems indent d items ++ behind) := by
  cases items with
  | nil => exact h
  | cons item rest => exact endsValue_comma _

theorem endsValue_fields (indent d : Nat) (fields : Fields) {behind : List Char}
    (h : EndsValue behind) : EndsValue (writeFields indent d fields ++ behind) := by
  cases fields with
  | nil => exact h
  | cons field rest => exact endsValue_comma _

/-- How the reading of a list goes on behind an item. -/
def readMoreItems (fuel depth : Nat) (acc : List Json) (cs : List Char) :
    Except ReadFault (Json × List Char) :=
  match skipSpace cs with
  | ',' :: rest => readItems fuel depth acc rest
  | ']' :: rest => .ok (list acc.reverse, rest)
  | _ => .error .syntaxFault

theorem readItems_item (acc : List Json) {vs : List Char} {item : Json} (hskip : skipSpace cs = vs)
    (h : readValue fuel depth vs = .ok (item, rest)) :
    readItems (fuel + 1) depth acc cs = readMoreItems fuel depth (item :: acc) rest := by
  unfold readItems
  rw [hskip, h]
  rfl

theorem readValue_list {vs : List Char} {item : Json} (hskip : skipSpace cs = vs)
    (h : readValue fuel depth vs = .ok (item, rest)) :
    readValue (fuel + 2) (depth + 1) ('[' :: cs) = readMoreItems fuel depth [item] rest := by
  have hstart := start_of_readValue h
  rw [← readItems_item [] (skipSpace_of_readValue h) h, readValue_bracket, hskip]
  split
  · exact absurd rfl (hstart ']' rfl).2
  · rfl

theorem readMoreItems_comma (acc : List Json) (cs : List Char) :
    readMoreItems fuel depth acc (',' :: cs) = readItems fuel depth acc cs := rfl

theorem readMoreItems_write {items acc : List Json} (hitems : ∀ item ∈ items, ReadsBack item)
    (hdepth : itemsDepth items ≤ depth) {e : Nat} (hfuel : (writeItems indent e items).length < fuel) :
    readMoreItems fuel depth acc (writeItems indent e items ++ (lineBreak indent d ++ ']' :: rest)) =
      .ok (list (acc.reverse ++ items), rest) := by
  induction items generalizing acc fuel with
  | nil =>
    unfold readMoreItems
    rw [writeItems, List.nil_append, skipSpace_lineBreak, List.append_nil]
    rfl
  | cons item more ih =>
    obtain ⟨hitem, hmore⟩ := List.forall_mem_cons.mp hitems
    rw [itemsDepth, Nat.max_le] at hdepth
    rw [writeItems] at hfuel ⊢
    obtain ⟨fuel, rfl⟩ := Nat.exists_eq_succ_of_ne_zero (Nat.ne_zero_of_lt hfuel)
    simp only [List.length_append, List.length_cons] at hfuel
    have hends := endsValue_items indent e more (endsValue_lineBreak indent d (']' :: rest))
    have hread := hitem indent e fuel depth _ hdepth.1 (by omega) hends
    have hskip := (skipSpace_lineBreak indent e _).trans (skipSpace_of_readValue hread)
    simp only [List.cons_append, List.append_assoc, readMoreItems_comma]
    rw [readItems_item acc hskip hread, ih hmore hdepth.2 (by omega)]
    simp

theorem readsBack_list {items : List Json} (hitems : ∀ item ∈ items, ReadsBack item) :
    ReadsBack (list items) := by
  intro indent d fuel depth rest hdepth hfuel hends
  obtain ⟨fuel, rfl⟩ := Nat.exists_eq_succ_of_ne_zero (Nat.ne_zero_of_lt hfuel)
  rw [Json.depth] at hdepth
  obtain ⟨depth, rfl⟩ := Nat.exists_eq_succ_of_ne_zero (Nat.ne_zero_of_lt hdepth)
  cases items with
  | nil => rfl
  | cons item more =>
    obtain ⟨hitem, hmore⟩ := List.forall_mem_cons.mp hitems
    rw [itemsDepth, Nat.succ_le_succ_iff, Nat.max_le] at hdepth
    rw [writeChars] at hfuel ⊢
    simp only [List.length_append, List.length_cons] at hfuel
    obtain ⟨fuel, rfl⟩ := Nat.exists_eq_succ_of_ne_zero (show fuel ≠ 0 by omega)
    have hread := hitem indent (d + 1) fuel depth _ hdepth.1 (by omega)
      (endsValue_items indent (d + 1) more (endsValue_lineBreak indent d (']' :: rest)))
    have hskip := (skipSpace_lineBreak indent (d + 1) _).trans (skipSpace_of_readValue hread)
    simp only [List.cons_append, List.append_assoc, List.nil_append]
    rw [readValue_list hskip hread, readMoreItems_write hmore hdepth.2 (by omega)]
    rfl

/-- How the reading of an object goes on behind a field. -/
def readMoreFields (fuel depth : Nat) (acc : List (String × Json)) (cs : List Char) :
    Except ReadFault (Json × List Char) :=
  match skipSpace cs with
  | ',' :: rest => readFields fuel depth acc rest
  | '\x7d' :: rest => .ok (object (Entries.ofList acc.reverse), rest)
  | _ => .error .syntaxFault

theorem readFields_field (acc : List (String × Json)) {key : String} {vs : List Char} {value : Json}
    (hskip : skipSpace cs = textChars key ++ (": ".toList ++ vs))
    (h : readValue fuel depth vs = .ok (value, rest)) :
    readFields (fuel + 1) depth acc cs = readMoreFields fuel depth ((key, value) :: acc) rest := by
  obtain ⟨quoted, hquoted, hkey⟩ := readText_textChars key (": ".toList ++ vs)
  have hcolon : skipSpace (": ".toList ++ vs) = ':' :: ' ' :: vs := rfl
  have hspace : skipSpace (' ' :: vs) = vs := (skipSpace_of_readValue h : skipSpace vs = vs)
  unfold readFields
  rw [hskip, hquoted]
  simp only [hkey, bind, Except.bind, hcolon, hspace, h]
  rfl

theorem readValue_object {key : String} {vs : List Char} {value : Json}
    (hskip : skipSpace cs = textChars key ++ (": ".toList ++ vs))
    (h : readValue fuel depth vs = .ok (value, rest)) :
    readValue (fuel + 2) (depth + 1) ('\x7b' :: cs) = readMoreFields fuel depth [(key, value)] rest := by
  have hquote : skipSpace (textChars key ++ (": ".toList ++ vs)) = textChars key ++ (": ".toList ++ vs) := rfl
  rw [← readFields_field [] hquote h, readValue_brace, hskip]
  rfl

theorem readMoreFields_comma (acc : List (String × Json)) (cs : List Char) :
    readMoreFields fuel depth acc (',' :: cs) = readFields fuel depth acc cs := rfl

theorem readMoreFields_write {fields acc : Fields} (hfields : ∀ field ∈ fields, ReadsBack field.2)
    (hdepth : fieldsDepth fields ≤ depth) {e : Nat} (hfuel : (writeFields indent e fields).length < fuel) :
    readMoreFields fuel depth acc (writeFields indent e fields ++ (lineBreak indent d ++ '\x7d' :: rest)) =
      .ok (object (Entries.ofList (acc.reverse ++ fields)), rest) := by
  induction fields generalizing acc fuel with
  | nil =>
    unfold readMoreFields
    rw [writeFields, List.nil_append, skipSpace_lineBreak, List.append_nil]
    rfl
  | cons field more ih =>
    obtain ⟨key, value⟩ := field
    obtain ⟨hvalue, hmore⟩ : ReadsBack value ∧ ∀ field ∈ more, ReadsBack field.2 :=
      List.forall_mem_cons.mp hfields
    rw [fieldsDepth, Nat.max_le] at hdepth
    rw [writeFields] at hfuel ⊢
    obtain ⟨fuel, rfl⟩ := Nat.exists_eq_succ_of_ne_zero (Nat.ne_zero_of_lt hfuel)
    simp only [List.length_append, List.length_cons] at hfuel
    have hends := endsValue_fields indent e more (endsValue_lineBreak indent d ('\x7d' :: rest))
    have hread := hvalue indent e fuel depth _ hdepth.1 (by omega) hends
    have hskip := skipSpace_lineBreak indent e (textChars key ++ (": ".toList ++
      (writeChars indent e value ++ (writeFields indent e more ++ (lineBreak indent d ++ '\x7d' :: rest)))))
    simp only [List.cons_append, List.append_assoc, readMoreFields_comma]
    rw [readFields_field acc hskip hread, ih hmore hdepth.2 (by omega)]
    simp

theorem readsBack_object {fields : Fields} (hdistinct : fields.Distinct)
    (hfields : ∀ field ∈ fields, ReadsBack field.2) : ReadsBack (object fields) := by
  intro indent d fuel depth rest hdepth hfuel hends
  obtain ⟨fuel, rfl⟩ := Nat.exists_eq_succ_of_ne_zero (Nat.ne_zero_of_lt hfuel)
  rw [Json.depth] at hdepth
  obtain ⟨depth, rfl⟩ := Nat.exists_eq_succ_of_ne_zero (Nat.ne_zero_of_lt hdepth)
  cases fields with
  | nil => rfl
  | cons field more =>
    obtain ⟨key, value⟩ := field
    obtain ⟨hvalue, hmore⟩ : ReadsBack value ∧ ∀ field ∈ more, ReadsBack field.2 :=
      List.forall_mem_cons.mp hfields
    rw [fieldsDepth, Nat.succ_le_succ_iff, Nat.max_le] at hdepth
    rw [writeChars] at hfuel ⊢
    simp only [List.length_append, List.length_cons] at hfuel
    obtain ⟨fuel, rfl⟩ := Nat.exists_eq_succ_of_ne_zero (show fuel ≠ 0 by omega)
    have hread := hvalue indent (d + 1) fuel depth _ hdepth.1 (by omega)
      (endsValue_fields indent (d + 1) more (endsValue_lineBreak indent d ('\x7d' :: rest)))
    have hskip := skipSpace_lineBreak indent (d + 1) (textChars key ++ (": ".toList ++
      (writeChars indent (d + 1) value ++ (writeFields indent (d + 1) more ++
        (lineBreak indent d ++ '\x7d' :: rest)))))
    simp only [List.cons_append, List.append_assoc, List.nil_append]
    rw [readValue_object hskip hread, readMoreFields_write hmore hdepth.2 (by omega)]
    rw [List.reverse_singleton, List.singleton_append, Entries.ofList_eq_self hdistinct]

/-- What needs no room below itself. -/
theorem readsBack_of_flat {document : Json}
    (h : ∀ fuel depth rest, EndsValue rest →
      readValue (fuel + 1) depth (writeChars 0 0 document ++ rest) = .ok (document, rest))
    (hflat : ∀ indent d, writeChars indent d document = writeChars 0 0 document) :
    ReadsBack document := by
  intro indent d fuel depth rest _ hfuel hends
  obtain ⟨fuel, rfl⟩ := Nat.exists_eq_succ_of_ne_zero (Nat.ne_zero_of_lt hfuel)
  rw [hflat]
  exact h fuel depth rest hends

theorem readsBack_text (s : String) : ReadsBack (text s) := by
  refine readsBack_of_flat (fun fuel depth rest _ => ?_) fun _ _ => rfl
  obtain ⟨quoted, hquoted, htext⟩ := readText_textChars s rest
  rw [writeChars, hquoted, readValue_quote, htext]
  rfl

/-- Every keyed document is read back as long as its whole numbers are not too long. -/
theorem Keyed.readsBack {document : Json} (h : Keyed document) (hfits : document.wholesFit = true) :
    ReadsBack document := by
  induction h with
  | null => exact readsBack_of_flat (fun _ _ _ _ => rfl) fun _ _ => rfl
  | bool value =>
    cases value with
    | true => exact readsBack_of_flat (fun _ _ _ _ => rfl) fun _ _ => rfl
    | false => exact readsBack_of_flat (fun _ _ _ _ => rfl) fun _ _ => rfl
  | int n =>
    have hlength : (digitText n.natAbs).length ≤ maxDigits := by simpa [wholesFit] using hfits
    exact readsBack_of_flat (fun _ _ _ hends => readValue_int hlength hends) fun _ _ => rfl
  | float x => exact readsBack_of_flat (fun _ _ _ hends => readValue_float x hends) fun _ _ => rfl
  | text s => exact readsBack_text s
  | list _ ih =>
    rw [wholesFit, itemsFit_iff] at hfits
    exact readsBack_list fun item hitem => ih item hitem (hfits item hitem)
  | object hdistinct _ ih =>
    rw [wholesFit, fieldsFit_iff] at hfits
    exact readsBack_object hdistinct fun field hfield => ih field hfield (hfits field hfield)

end Values

theorem itemsDepth_le_length {items : List Json} (indent d : Nat)
    (h : ∀ item ∈ items, item.depth ≤ (writeChars indent d item).length) :
    itemsDepth items ≤ (writeItems indent d items).length := by
  induction items with
  | nil => exact Nat.zero_le _
  | cons item rest ih =>
    obtain ⟨hitem, hrest⟩ := List.forall_mem_cons.mp h
    have hmore := ih hrest
    rw [itemsDepth, writeItems]
    simp only [List.length_append, List.length_cons]
    omega

theorem fieldsDepth_le_length {fields : Fields} (indent d : Nat)
    (h : ∀ field ∈ fields, field.2.depth ≤ (writeChars indent d field.2).length) :
    fieldsDepth fields ≤ (writeFields indent d fields).length := by
  induction fields with
  | nil => exact Nat.zero_le _
  | cons field rest ih =>
    obtain ⟨hfield, hrest⟩ := List.forall_mem_cons.mp h
    have hmore := ih hrest
    rw [fieldsDepth, writeFields]
    simp only [List.length_append, List.length_cons]
    omega

/-- A text has room for what is nested in it. -/
theorem Keyed.depth_le_length {document : Json} (h : Keyed document) (indent d : Nat) :
    document.depth ≤ (writeChars indent d document).length := by
  induction h generalizing d with
  | null | bool | int | float | text => exact Nat.zero_le _
  | @list items _ ih =>
    cases items with
    | nil => exact Nat.le_succ 1
    | cons item rest =>
      obtain ⟨hitem, hrest⟩ := List.forall_mem_cons.mp ih
      have hfirst := hitem (d + 1)
      have hmore := itemsDepth_le_length indent (d + 1) fun item h => hrest item h (d + 1)
      rw [depth, itemsDepth, writeChars]
      simp only [List.length_append, List.length_cons]
      omega
  | @object fields _ _ ih =>
    cases fields with
    | nil => exact Nat.le_succ 1
    | cons field rest =>
      obtain ⟨hfield, hrest⟩ := List.forall_mem_cons.mp ih
      have hfirst := hfield (d + 1)
      have hmore := fieldsDepth_le_length indent (d + 1) fun field h => hrest field h (d + 1)
      rw [depth, fieldsDepth, writeChars]
      simp only [List.length_append, List.length_cons]
      omega

/-- A document that has been written is read back, with its fields in the order in which they have been
written. -/
theorem read_write {document : Json} (h : Keyed document) (hfits : document.wholesFit = true)
    (indent : Nat) (sorted : Bool) : read (write indent sorted document) =
      .ok (if sorted then document.sortFields else document) := by
  have hwritten : Keyed (if sorted then document.sortFields else document) ∧
      (if sorted then document.sortFields else document).wholesFit = true := by
    cases sorted with
    | false => exact ⟨h, hfits⟩
    | true => exact ⟨h.sortFields, h.wholesFit_sortFields hfits⟩
  unfold write
  dsimp only
  generalize (if sorted then document.sortFields else document) = document at *
  obtain ⟨hkeyed, hfits⟩ := hwritten
  have hends : EndsValue ['\n'] := by
    intro c hc
    exact .inr (Option.some.inj hc).symm
  have hdepth := hkeyed.depth_le_length indent 0
  have hvalue := hkeyed.readsBack hfits indent 0 (2 * (writeChars indent 0 document ++ ['\n']).length + 2)
    ((writeChars indent 0 document).length + 1) ['\n'] (by omega)
    (by rw [List.length_append]; omega) hends
  unfold read readWithin
  rw [String.toList_ofList, String.length_ofList, List.length_append, List.length_singleton]
  dsimp only
  rw [skipSpace_of_readValue hvalue, hvalue]
  rfl

end MapLayers.Json
