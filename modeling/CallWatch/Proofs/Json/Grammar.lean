import CallWatch.Proofs.Json.Tokens

/-! # The grammar of JSON texts

Which characters write a value, with blanks where they may stand, and that each of them is read as
the value it writes. A number is to be small: beyond the range of the doubles none is read.

`Written p cs` says that the characters write a phrase: a value, or what stands in an array or object
up to its end. -/

namespace CallWatch.Json

/-- What is written: a value, or the items or members of one up to its end. -/
inductive Phrase where
  | value (j : Json)
  | items (l : List Json)
  | members (l : List (String × Json))

/-- These characters write the phrase. -/
inductive Written : Phrase → List Char → Prop
  | null : Written (.value .null) ['n', 'u', 'l', 'l']
  | true : Written (.value (.bool true)) ['t', 'r', 'u', 'e']
  | false : Written (.value (.bool false)) ['f', 'a', 'l', 's', 'e']
  | int {n} (hn : IsSmall n) : Written (.value (.int n)) (intChars n)
  | string (s) : Written (.value (.string s)) (quoted s)
  | noItems {b} (hb : Blanks b) : Written (.value (.array [])) ('[' :: (b ++ [']']))
  | array {items cs} (h : Written (.items items) cs) : Written (.value (.array items)) ('[' :: cs)
  | noMembers {b} (hb : Blanks b) : Written (.value (.object [])) ('\x7b' :: (b ++ ['\x7d']))
  | object {members cs} (h : Written (.members members) cs) :
      Written (.value (.object members)) ('\x7b' :: cs)
  | lastItem {j cs b b'} (hb : Blanks b) (h : Written (.value j) cs) (hb' : Blanks b') :
      Written (.items [j]) (b ++ (cs ++ (b' ++ [']'])))
  | item {j rest cs cs' b b'} (hb : Blanks b) (h : Written (.value j) cs) (hb' : Blanks b')
      (hrest : Written (.items rest) cs') :
      Written (.items (j :: rest)) (b ++ (cs ++ (b' ++ ',' :: cs')))
  | lastMember {k j cs b b₁ b₂ b'} (hb : Blanks b) (hb₁ : Blanks b₁) (hb₂ : Blanks b₂)
      (h : Written (.value j) cs) (hb' : Blanks b') :
      Written (.members [(k, j)]) (b ++ (quoted k ++ (b₁ ++ ':' :: (b₂ ++ (cs ++ (b' ++ ['\x7d']))))))
  | member {k j rest cs cs' b b₁ b₂ b'} (hb : Blanks b) (hb₁ : Blanks b₁) (hb₂ : Blanks b₂)
      (h : Written (.value j) cs) (hb' : Blanks b') (hrest : Written (.members rest) cs') :
      Written (.members ((k, j) :: rest))
        (b ++ (quoted k ++ (b₁ ++ ':' :: (b₂ ++ (cs ++ (b' ++ ',' :: cs'))))))

/-- Wherever they stand, the characters are read as the phrase, and what stands behind them is left.
The fuel is enough for as many characters. -/
def Phrase.ReadFrom (cs : List Char) : Phrase → Prop
  | .value j => ∀ fuel b rest, cs.length < fuel → Blanks b → EndsNumber rest →
      readValue fuel (b ++ (cs ++ rest)) = some (j, rest)
  | .items l => ∀ fuel rest, cs.length < fuel → readItems fuel (cs ++ rest) = some (l, rest)
  | .members l => ∀ fuel rest, cs.length < fuel →
      readMembers fuel (cs ++ rest) = some (some l, rest)

/-! ### How a phrase begins -/

/-- The characters begin, behind blanks, and not with the end of an array or object. -/
def Begins (cs : List Char) : Prop :=
  ∃ c tail, skipBlanks cs = c :: tail ∧ c ≠ ']' ∧ c ≠ '\x7d'

theorem begins_blanks {b cs : List Char} (hb : Blanks b) (h : Begins cs) : Begins (b ++ cs) := by
  obtain ⟨c, tail, hskip, hc⟩ := h
  exact ⟨c, tail, (skipBlanks_append hb cs).trans hskip, hc⟩

theorem begins_cons {c : Char} (hc : isBlank c = false ∧ c ≠ ']' ∧ c ≠ '\x7d') (cs : List Char) :
    Begins (c :: cs) := ⟨c, cs, skipBlanks_cons hc.1 cs, hc.2⟩

/-- A number begins with its sign or with a digit. -/
theorem exists_intChars (n : Int) :
    ∃ c cs, intChars n = c :: cs ∧ (c = '-' ∨ c.isDigit = true) := by
  cases n with
  | ofNat n =>
    have hds := digits_repr n
    rw [intChars]
    generalize n.repr.toList = ds at hds
    rcases ds with _ | ⟨c, cs⟩
    · exact absurd rfl hds.nonempty
    · exact ⟨c, cs, rfl, .inr (hds.isDigit c List.mem_cons_self)⟩
  | negSucc n => exact ⟨_, _, rfl, .inl rfl⟩

/-- No character that begins a number begins anything else. -/
theorem plain_of_begins_number {c : Char} (hc : c = '-' ∨ c.isDigit = true) :
    isBlank c = false ∧ c ∉ [']', '\x7d', '[', '\x7b', '"', 'n', 't', 'f'] := by
  constructor
  · rcases hb : isBlank c with _ | _
    · rfl
    · simp only [isBlank, Bool.or_eq_true, beq_iff_eq] at hb
      rcases hb with ((rfl | rfl) | rfl) | rfl <;> revert hc <;> decide
  · intro hmem
    simp only [List.mem_cons, List.not_mem_nil, or_false] at hmem
    rcases hmem with rfl | rfl | rfl | rfl | rfl | rfl | rfl | rfl <;> revert hc <;> decide

theorem Written.begins {p : Phrase} {cs : List Char} (h : Written p cs) (rest : List Char) :
    Begins (cs ++ rest) := by
  induction h generalizing rest with
  | @int n =>
    obtain ⟨c, cs, hcs, hc⟩ := exists_intChars n
    obtain ⟨hblank, hmem⟩ := plain_of_begins_number hc
    simp only [List.mem_cons, not_or] at hmem
    rw [hcs]
    exact begins_cons ⟨hblank, hmem.1, hmem.2.1⟩ _
  | lastItem hb _ _ ih =>
    rw [List.append_assoc, List.append_assoc]
    exact begins_blanks hb (ih _)
  | item hb _ _ _ ih =>
    rw [List.append_assoc, List.append_assoc]
    exact begins_blanks hb (ih _)
  | lastMember hb =>
    rw [List.append_assoc]
    exact begins_blanks hb (begins_cons (by decide) _)
  | member hb =>
    rw [List.append_assoc]
    exact begins_blanks hb (begins_cons (by decide) _)
  | _ => exact begins_cons (by decide) _

/-! ### Reading a phrase -/

/-- The first character decides what is read. -/
theorem readValue_succ {b : List Char} (hb : Blanks b) {c : Char} (hc : isBlank c = false)
    (fuel : Nat) (cs : List Char) :
    readValue (fuel + 1) (b ++ c :: cs) = readValue (fuel + 1) (c :: cs) := by
  rw [readValue, readValue, skipBlanks_blanks_cons hb hc, skipBlanks_cons hc]

theorem readValue_number {c : Char} (hc : c = '-' ∨ c.isDigit = true) (fuel : Nat)
    (cs : List Char) : readValue (fuel + 1) (c :: cs) = readNumber (c :: cs) := by
  obtain ⟨hblank, hmem⟩ := plain_of_begins_number hc
  simp only [List.mem_cons, List.not_mem_nil, or_false, not_or] at hmem
  rw [readValue, skipBlanks_cons hblank]
  split <;> simp_all

theorem readValue_array {cs : List Char} (hcs : Begins cs) (fuel : Nat) :
    readValue (fuel + 1) ('[' :: cs) =
      (readItems fuel cs).map fun x => (.array x.1, x.2) := by
  obtain ⟨c, tail, hskip, hc, -⟩ := hcs
  rw [readValue, skipBlanks_cons (by decide)]
  simp only [hskip]
  split
  · next heq => exact absurd (List.cons.inj heq).1 hc
  · rfl

theorem readValue_object {cs : List Char} (hcs : Begins cs) (fuel : Nat) :
    readValue (fuel + 1) ('\x7b' :: cs) =
      (readMembers fuel cs).map fun x => ((x.1.map .object).getD .unreadable, x.2) := by
  obtain ⟨c, tail, hskip, -, hc⟩ := hcs
  rw [readValue, skipBlanks_cons (by decide)]
  simp only [hskip]
  split
  · next heq => exact absurd (List.cons.inj heq).1 hc
  · rfl

theorem readItems_last {fuel : Nat} {cs rest r : List Char} {j : Json}
    (hread : readValue fuel cs = some (j, rest)) (hend : skipBlanks rest = ']' :: r) :
    readItems (fuel + 1) cs = some ([j], r) := by
  simp [readItems, hread, hend]

theorem readItems_more {fuel : Nat} {cs rest r : List Char} {j : Json}
    (hread : readValue fuel cs = some (j, rest)) (hend : skipBlanks rest = ',' :: r) :
    readItems (fuel + 1) cs = (readItems fuel r).map fun x => (j :: x.1, x.2) := by
  simp [readItems, hread, hend]

/-- A member is read up to what stands behind it: its key, the colon and the value. -/
def ReadsMember (fuel : Nat) (cs : List Char) (k : String) (j : Json) (rest : List Char) : Prop :=
  ∃ behindQuote behindKey behindColon, skipBlanks cs = '"' :: behindQuote ∧
    readText behindQuote = some (some k.toList, behindKey) ∧
    skipBlanks behindKey = ':' :: behindColon ∧ readValue fuel behindColon = some (j, rest)

theorem readMembers_last {fuel : Nat} {cs rest r : List Char} {k : String} {j : Json}
    (hread : ReadsMember fuel cs k j rest) (hend : skipBlanks rest = '\x7d' :: r) :
    readMembers (fuel + 1) cs = some (some [(k, j)], r) := by
  obtain ⟨_, _, _, hquote, htext, hcolon, hvalue⟩ := hread
  simp [readMembers, hquote, htext, hcolon, hvalue, hend]

theorem readMembers_more {fuel : Nat} {cs rest r : List Char} {k : String} {j : Json}
    (hread : ReadsMember fuel cs k j rest) (hend : skipBlanks rest = ',' :: r) :
    readMembers (fuel + 1) cs =
      (readMembers fuel r).map fun x => (x.1.map ((k, j) :: ·), x.2) := by
  obtain ⟨_, _, _, hquote, htext, hcolon, hvalue⟩ := hread
  simp [readMembers, hquote, htext, hcolon, hvalue, hend]

/-- Fuel for so many characters is not zero. -/
theorem exists_fuel {n fuel : Nat} (h : n < fuel) : ∃ fuel', fuel = fuel' + 1 ∧ n ≤ fuel' :=
  ⟨fuel - 1, by omega, by omega⟩

/-- What is written between quotes is read as the text. -/
theorem skipBlanks_quoted {b : List Char} (hb : Blanks b) (k : String) (rest : List Char) :
    ∃ cs, skipBlanks (b ++ (quoted k ++ rest)) = '"' :: cs ∧
      readText cs = some (some k.toList, rest) := by
  refine ⟨k.toList.flatMap escapeChar ++ '"' :: rest, ?_, readText_quoted _ _⟩
  simp [quoted, skipBlanks_blanks_cons hb (c := '"') (by decide)]

/-- **What is written is read.** -/
theorem Written.readFrom {p : Phrase} {cs : List Char} (h : Written p cs) : p.ReadFrom cs := by
  induction h with
  | @int n hn =>
    intro fuel b rest hlt hb hrest
    obtain ⟨fuel, rfl, -⟩ := exists_fuel hlt
    obtain ⟨c, cs, hcs, hc⟩ := exists_intChars n
    rw [hcs, List.cons_append, readValue_succ hb (plain_of_begins_number hc).1,
      readValue_number hc, ← List.cons_append, ← hcs, readNumber_intChars hn hrest]
  | string s =>
    intro fuel b rest hlt hb _
    obtain ⟨fuel, rfl, -⟩ := exists_fuel hlt
    obtain ⟨cs, hskip, hread⟩ := skipBlanks_quoted hb s rest
    simp [readValue, hskip, hread]
  | @noItems b' hb' =>
    intro fuel b rest hlt hb _
    obtain ⟨fuel, rfl, -⟩ := exists_fuel hlt
    rw [List.cons_append, readValue_succ hb (by decide)]
    simp [readValue, skipBlanks_cons, isBlank, skipBlanks_blanks_cons hb']
  | array h ih =>
    intro fuel b rest hlt hb _
    obtain ⟨fuel, rfl, hle⟩ := exists_fuel hlt
    rw [List.cons_append, readValue_succ hb (by decide), readValue_array (h.begins rest),
      ih fuel rest hle]
    rfl
  | @noMembers b' hb' =>
    intro fuel b rest hlt hb _
    obtain ⟨fuel, rfl, -⟩ := exists_fuel hlt
    rw [List.cons_append, readValue_succ hb (by decide)]
    simp [readValue, skipBlanks_cons, isBlank, skipBlanks_blanks_cons hb']
  | object h ih =>
    intro fuel b rest hlt hb _
    obtain ⟨fuel, rfl, hle⟩ := exists_fuel hlt
    rw [List.cons_append, readValue_succ hb (by decide), readValue_object (h.begins rest),
      ih fuel rest hle]
    rfl
  | @lastItem j cs b b' hb _ hb' ih =>
    intro fuel rest hlt
    obtain ⟨fuel, rfl, hle⟩ := exists_fuel hlt
    simp only [List.length_append, List.length_cons] at hle
    have hread := ih fuel b (b' ++ ']' :: rest) (by omega) hb (hb'.endsNumber_cons (by decide) _)
    simp only [List.append_assoc, List.singleton_append]
    exact readItems_last hread (skipBlanks_blanks_cons hb' (by decide) rest)
  | @item j more cs cs' b b' hb _ hb' _ ih ihmore =>
    intro fuel rest hlt
    obtain ⟨fuel, rfl, hle⟩ := exists_fuel hlt
    simp only [List.length_append, List.length_cons] at hle
    have hread := ih fuel b (b' ++ ',' :: (cs' ++ rest)) (by omega) hb
      (hb'.endsNumber_cons (by decide) _)
    simp only [List.append_assoc, List.cons_append]
    rw [readItems_more hread (skipBlanks_blanks_cons hb' (by decide) _),
      ihmore fuel rest (by omega)]
    rfl
  | @lastMember k j cs b b₁ b₂ b' hb hb₁ hb₂ _ hb' ih =>
    intro fuel rest hlt
    obtain ⟨fuel, rfl, hle⟩ := exists_fuel hlt
    simp only [List.length_append, List.length_cons] at hle
    have hread := ih fuel b₂ (b' ++ '\x7d' :: rest) (by omega) hb₂
      (hb'.endsNumber_cons (by decide) _)
    obtain ⟨behindQuote, hquote, htext⟩ :=
      skipBlanks_quoted hb k (b₁ ++ ':' :: (b₂ ++ (cs ++ (b' ++ '\x7d' :: rest))))
    have hmember : ReadsMember fuel _ k j _ :=
      ⟨_, _, _, hquote, htext, skipBlanks_blanks_cons hb₁ (by decide) _, hread⟩
    simp only [List.append_assoc, List.cons_append, List.nil_append]
    exact readMembers_last hmember (skipBlanks_blanks_cons hb' (by decide) rest)
  | @member k j more cs cs' b b₁ b₂ b' hb hb₁ hb₂ _ hb' _ ih ihmore =>
    intro fuel rest hlt
    obtain ⟨fuel, rfl, hle⟩ := exists_fuel hlt
    simp only [List.length_append, List.length_cons] at hle
    have hread := ih fuel b₂ (b' ++ ',' :: (cs' ++ rest)) (by omega) hb₂
      (hb'.endsNumber_cons (by decide) _)
    obtain ⟨behindQuote, hquote, htext⟩ :=
      skipBlanks_quoted hb k (b₁ ++ ':' :: (b₂ ++ (cs ++ (b' ++ ',' :: (cs' ++ rest)))))
    have hmember : ReadsMember fuel _ k j _ :=
      ⟨_, _, _, hquote, htext, skipBlanks_blanks_cons hb₁ (by decide) _, hread⟩
    simp only [List.append_assoc, List.cons_append]
    rw [readMembers_more hmember (skipBlanks_blanks_cons hb' (by decide) _),
      ihmore fuel rest (by omega)]
    rfl
  | _ =>
    intro fuel b rest hlt hb _
    obtain ⟨fuel, rfl, -⟩ := exists_fuel hlt
    rw [List.cons_append, readValue_succ hb (by decide)]
    rfl

/-- **A text that writes a value stands for it**, also with blanks around it. -/
theorem scan?_of_written {j : Json} {b cs b' : List Char} (hb : Blanks b)
    (h : Written (.value j) cs) (hb' : Blanks b') :
    scan? (String.ofList (b ++ (cs ++ b'))) = some j := by
  have hread := h.readFrom ((b ++ (cs ++ b')).length + 1) b b'
    (by simp only [List.length_append]; omega) hb hb'.endsNumber
  have hnone : skipBlanks b' = [] := by
    rw [← List.append_nil b', skipBlanks_append hb']
    rfl
  rw [scan?, String.length_ofList, String.toList_ofList, hread]
  simp [hnone]

end CallWatch.Json
