import DocumentReplication.Proofs.ChangeVector.Order
import DocumentReplication.Proofs.Work

/-!
The text of a change vector determines it. What reading accepts is legible: no tag holds a colon, no
part a comma, and no blank stands at the end of a token, so writing such a vector and reading it
again gives the vector back. Legible vectors are closed under merging and filtering.
-/

namespace DocumentReplication

namespace Text

/-- Whether a text is not empty and neither begins nor ends with a blank. -/
def Solid (text : List Char) : Prop :=
  (∃ first rest, text = first :: rest ∧ isBlank first = false) ∧
    ∃ front last, text = front ++ [last] ∧ isBlank last = false

theorem Solid.ne_nil {text : List Char} (solid : Solid text) : text ≠ [] := by
  obtain ⟨⟨first, rest, rfl, -⟩, -⟩ := solid
  simp

theorem Solid.trim {text : List Char} (solid : Solid text) : trim text = text := by
  obtain ⟨⟨first, rest, begins, firstSolid⟩, front, last, ends, lastSolid⟩ := solid
  have start : trimStart text = text := by
    rw [begins, trimStart, List.dropWhile_cons_of_neg (by simp [firstSolid])]
  rw [Text.trim, start, trimEnd, ends, List.reverse_append, List.reverse_singleton,
    List.singleton_append, List.dropWhile_cons_of_neg (by simp [lastSolid]), List.reverse_cons,
    List.reverse_reverse]

theorem Solid.enclose {first last : List Char} (firstSolid : Solid first) (lastSolid : Solid last)
    (middle : List Char) : Solid (first ++ middle ++ last) := by
  obtain ⟨⟨head, rest, rfl, headSolid⟩, -⟩ := firstSolid
  obtain ⟨-, front, tail, rfl, tailSolid⟩ := lastSolid
  exact ⟨⟨head, rest ++ middle ++ (front ++ [tail]), by simp, headSolid⟩,
    (head :: rest) ++ middle ++ front, tail, by simp, tailSolid⟩

theorem trim_blank_cons {blank : Char} (isBlank : isBlank blank = true) (text : List Char) :
    trim (blank :: text) = trim text := by
  rw [trim, trimStart, List.dropWhile_cons_of_pos isBlank]
  rfl

theorem trimEnd_prefix (text : List Char) : ∃ blanks, text = trimEnd text ++ blanks := by
  refine ⟨(text.reverse.takeWhile isBlank).reverse, ?_⟩
  rw [trimEnd, ← List.reverse_append, List.takeWhile_append_dropWhile, List.reverse_reverse]

theorem trim_isInfix (text : List Char) : trim text <:+: text := by
  obtain ⟨blanks, same⟩ := trimEnd_prefix (trimStart text)
  have front : trim text <+: trimStart text := ⟨blanks, same.symm⟩
  exact front.isInfix.trans (List.dropWhile_suffix _).isInfix

theorem solid_trim {text : List Char} (some : trim text ≠ []) : Solid (trim text) := by
  constructor
  · obtain ⟨blanks, same⟩ := trimEnd_prefix (trimStart text)
    cases trimmed : trim text with
    | nil => contradiction
    | cons first rest =>
        refine ⟨first, rest, rfl, ?_⟩
        rw [← trim, trimmed, List.cons_append] at same
        have start : text.dropWhile isBlank ≠ [] := by
          rw [show text.dropWhile isBlank = first :: (rest ++ blanks) from same]
          simp
        have notBlank := List.head_dropWhile_not isBlank start
        simpa only [show text.dropWhile isBlank = first :: (rest ++ blanks) from same,
          List.head_cons] using notBlank
  · cases reversed : (trimStart text).reverse.dropWhile isBlank with
    | nil => simp [trim, trimEnd, reversed] at some
    | cons last rest =>
        refine ⟨rest.reverse, last, by simp [trim, trimEnd, reversed], ?_⟩
        have start : (trimStart text).reverse.dropWhile isBlank ≠ [] := by simp [reversed]
        have notBlank := List.head_dropWhile_not isBlank start
        simpa [reversed] using notBlank

theorem ends_of_append {front text whole : List Char} {last : Char} (some : text ≠ [])
    (ends : front ++ text = whole ++ [last]) : ∃ rest, text = rest ++ [last] := by
  rcases List.append_eq_append_iff.mp ends with ⟨rest, -, same⟩ | ⟨rest, -, same⟩
  · exact ⟨rest, same⟩
  · cases rest with
    | nil => exact ⟨[], same.symm⟩
    | cons first others => simp [some] at same

theorem not_mem_of_mem_pieces {separator : Char} {text piece : List Char}
    (member : piece ∈ pieces separator text) : separator ∉ piece := by
  induction text generalizing piece with
  | nil =>
      rw [List.mem_singleton.mp member]
      simp
  | cons c rest ih =>
      unfold pieces at member
      split at member
      · rcases List.mem_cons.mp member with rfl | later
        · simp
        · exact ih later
      · rename_i different
        split at member
        · rw [List.mem_singleton.mp member]
          simpa using Ne.symm different
        · rename_i first others found
          rcases List.mem_cons.mp member with rfl | later
          · have inner : separator ∉ first := ih (by simp [found])
            simp [inner, Ne.symm different]
          · exact ih (by simp [found, later])

theorem pieces_isInfix {separator : Char} {text first : List Char} {others : List (List Char)}
    (cut : pieces separator text = first :: others) :
    first <+: text ∧ ∀ piece ∈ others, piece <:+: text := by
  induction text generalizing first others with
  | nil =>
      cases cut
      exact ⟨List.nil_prefix, fun _ member => absurd member List.not_mem_nil⟩
  | cons c rest ih =>
      cases later : pieces separator rest with
      | nil => exact absurd later (pieces_ne_nil separator rest)
      | cons next more =>
          obtain ⟨front, inside⟩ := ih later
          simp only [pieces, later] at cut
          split at cut
          · cases cut
            refine ⟨List.nil_prefix, List.forall_mem_cons.mpr ⟨?_, fun piece member => ?_⟩⟩
            · exact front.isInfix.trans (List.suffix_cons c rest).isInfix
            · exact (inside piece member).trans (List.suffix_cons c rest).isInfix
          · cases cut
            exact ⟨List.cons_prefix_cons.mpr ⟨rfl, front⟩, fun piece member =>
              (inside piece member).trans (List.suffix_cons c rest).isInfix⟩

theorem infix_of_mem_pieces {separator : Char} {text piece : List Char}
    (member : piece ∈ pieces separator text) : piece <:+: text := by
  cases cut : pieces separator text with
  | nil => exact absurd cut (pieces_ne_nil separator text)
  | cons first others =>
      obtain ⟨front, inside⟩ := pieces_isInfix cut
      rw [cut] at member
      rcases List.mem_cons.mp member with rfl | later
      · exact front.isInfix
      · exact inside piece later

end Text

open Text

namespace VectorEntry

/-- Whether the text of an entry can be read again. -/
structure Legible (entry : VectorEntry) : Prop where
  tagBegins : ∃ first rest, entry.tag.toList = first :: rest ∧ isBlank first = false
  tagNoColon : ':' ∉ entry.tag.toList
  tagNoComma : ',' ∉ entry.tag.toList
  etagNonneg : 0 ≤ entry.etag.toInt
  instanceEnds : ∃ front last, entry.instanceId.toList = front ++ [last] ∧ isBlank last = false
  instanceNoComma : ',' ∉ entry.instanceId.toList

variable {entry seen : VectorEntry} {token : List Char}

theorem Legible.advance (entryLegible : entry.Legible) (seenLegible : seen.Legible) :
    (entry.advance seen).Legible := by
  unfold VectorEntry.advance
  split
  · exact ⟨seenLegible.tagBegins, seenLegible.tagNoColon, seenLegible.tagNoComma,
      seenLegible.etagNonneg, entryLegible.instanceEnds, entryLegible.instanceNoComma⟩
  · exact entryLegible

theorem Legible.write_eq (legible : entry.Legible) :
    entry.write = entry.tag.toList ++
      ':' :: (Decimal.digits entry.etag.toInt.toNat ++ '-' :: entry.instanceId.toList) := by
  have written : Decimal.signed entry.etag.toInt = Decimal.digits entry.etag.toInt.toNat := by
    cases size : entry.etag.toInt with
    | ofNat size => rfl
    | negSucc size =>
        have nonneg := legible.etagNonneg
        rw [size] at nonneg
        omega
  simp [write, written]

theorem Legible.solid_write (legible : entry.Legible) : Solid entry.write := by
  obtain ⟨first, rest, begins, firstSolid⟩ := legible.tagBegins
  obtain ⟨front, last, ends, lastSolid⟩ := legible.instanceEnds
  rw [legible.write_eq]
  refine ⟨⟨first, _, by rw [begins, List.cons_append], firstSolid⟩,
    entry.tag.toList ++ ':' :: (Decimal.digits entry.etag.toInt.toNat ++ '-' :: front), last,
    by simp [ends], lastSolid⟩

theorem Legible.write_noComma (legible : entry.Legible) : ',' ∉ entry.write := by
  have digits : ',' ∉ Decimal.digits entry.etag.toInt.toNat :=
    Decimal.digits_no_separator (by decide)
  rw [legible.write_eq]
  simp only [List.mem_append, List.mem_cons, not_or]
  exact ⟨legible.tagNoComma, by decide, digits, by decide, legible.instanceNoComma⟩

theorem read_write (legible : entry.Legible) : read entry.write = .ok entry := by
  have bound : entry.etag.toInt.toNat < 0x8000000000000000 := by
    have upper := entry.etag.toInt_lt
    omega
  have noDash : '-' ∉ Decimal.digits entry.etag.toInt.toNat :=
    Decimal.digits_no_separator (by decide)
  have colon : cut? ':' entry.write = some (entry.tag.toList,
      Decimal.digits entry.etag.toInt.toNat ++ '-' :: entry.instanceId.toList) :=
    cut?_eq_some_iff.mpr ⟨legible.write_eq, legible.tagNoColon⟩
  have dash : cut? '-' (Decimal.digits entry.etag.toInt.toNat ++ '-' :: entry.instanceId.toList) =
      some (Decimal.digits entry.etag.toInt.toNat, entry.instanceId.toList) :=
    cut?_eq_some_iff.mpr ⟨rfl, noDash⟩
  have etag : Int64.ofNat entry.etag.toInt.toNat = entry.etag := by
    rw [← Int64.ofInt_eq_ofNat, Int.toNat_of_nonneg legible.etagNonneg, Int64.ofInt_toInt]
  obtain ⟨first, rest, begins, -⟩ := legible.tagBegins
  obtain ⟨front, last, ends, -⟩ := legible.instanceEnds
  have tagSome : entry.tag.toList.isEmpty = false := by simp [begins]
  have instanceSome : entry.instanceId.toList.isEmpty = false := by simp [ends]
  simp only [read, colon, dash, tagSome, instanceSome, Bool.or_self, Bool.false_eq_true, if_false,
    Decimal.value?_digits, if_pos bound, String.ofList_toList, etag]

/-- What is read is cut at the first colon and the first dash behind it. -/
theorem parts_of_read (found : read token = .ok entry) :
    ∃ etag, token = entry.tag.toList ++ ':' :: (etag ++ '-' :: entry.instanceId.toList) ∧
      ':' ∉ entry.tag.toList ∧ entry.tag.toList ≠ [] ∧ entry.instanceId.toList ≠ [] ∧
      0 ≤ entry.etag.toInt := by
  simp only [read] at found
  split at found
  · contradiction
  · rename_i tag rest colon
    obtain ⟨rfl, noColon⟩ := cut?_eq_some_iff.mp colon
    split at found
    · contradiction
    · rename_i etag name dash
      obtain ⟨rfl, -⟩ := cut?_eq_some_iff.mp dash
      split at found
      · contradiction
      · rename_i parts
        simp only [Bool.or_eq_true, not_or, List.isEmpty_iff] at parts
        split at found
        · contradiction
        · split at found
          · rename_i size _ bound
            cases found
            have exact : (Int64.ofNat size).toInt = size := Int64.toInt_ofNat_of_lt bound
            refine ⟨etag, by simp, by simpa using noColon, by simpa using parts.1,
              by simpa using parts.2, ?_⟩
            simp only [exact]
            omega
          · contradiction

theorem legible_of_read (found : read token = .ok entry) (solid : Solid token)
    (noComma : ',' ∉ token) : entry.Legible := by
  obtain ⟨etag, rfl, noColon, tagSome, instanceSome, nonneg⟩ := parts_of_read found
  simp only [List.mem_append, List.mem_cons, not_or] at noComma
  obtain ⟨⟨first, after, begins, firstSolid⟩, front, last, ends, lastSolid⟩ := solid
  refine ⟨?_, noColon, noComma.1, nonneg, ?_, noComma.2.2.2.2⟩
  · obtain ⟨head, tail, same⟩ := List.exists_cons_of_ne_nil tagSome
    rw [same, List.cons_append, List.cons.injEq] at begins
    exact ⟨head, tail, same, begins.1 ▸ firstSolid⟩
  · -- The token ends as its last part does, since that part is not empty.
    have regrouped : entry.tag.toList ++ ':' :: (etag ++ '-' :: entry.instanceId.toList) =
        (entry.tag.toList ++ ':' :: (etag ++ ['-'])) ++ entry.instanceId.toList := by
      simp
    rw [regrouped] at ends
    obtain ⟨rest, final⟩ := ends_of_append instanceSome ends
    exact ⟨rest, last, final, lastSolid⟩

end VectorEntry

section Lists

variable {ε α β : Type} {read : β → Except ε α} {values : List α} {sources : List β}

theorem mapM_map_eq_ok {write : α → β} (back : ∀ value ∈ values, read (write value) = .ok value) :
    (values.map write).mapM read = .ok values := by
  induction values with
  | nil => rfl
  | cons first rest ih =>
      rw [List.map_cons, List.mapM_cons, back first (by simp),
        ih fun value member => back value (by simp [member])]
      rfl

theorem exists_of_mem_mapM (done : sources.mapM read = .ok values) :
    ∀ value ∈ values, ∃ source ∈ sources, read source = .ok value := by
  induction sources generalizing values with
  | nil =>
      cases done
      simp
  | cons first rest ih =>
      rw [List.mapM_cons] at done
      obtain ⟨head, headRead, done⟩ := Except.bind_eq_ok_iff.mp done
      obtain ⟨others, othersRead, done⟩ := Except.bind_eq_ok_iff.mp done
      cases done
      intro value member
      rcases List.mem_cons.mp member with rfl | later
      · exact ⟨first, by simp, headRead⟩
      · obtain ⟨source, found, same⟩ := ih othersRead value later
        exact ⟨source, by simp [found], same⟩

end Lists

namespace ChangeVector

variable {vector incoming : ChangeVector} {text : String} {ignored : List String}

/-- Whether the text of a vector can be read again. -/
def Legible (vector : ChangeVector) : Prop :=
  ∀ entry ∈ vector.entries, entry.Legible

theorem legible_empty : empty.Legible := by
  intro entry member
  contradiction

theorem Legible.merge (first : vector.Legible) (second : incoming.Legible) :
    (vector.merge incoming).Legible :=
  forall_mem_merge (fun _ _ entryLegible seenLegible _ => entryLegible.advance seenLegible)
    first second

theorem Legible.filter (legible : vector.Legible) (keep : VectorEntry → Bool) :
    (vector.filter keep).Legible :=
  fun entry member => legible entry (List.mem_filter.mp member).1

theorem Legible.withoutTransactional (legible : vector.Legible) :
    vector.withoutTransactional.Legible :=
  legible.filter _

theorem Legible.without (legible : vector.Legible) (ignored : List String) :
    (vector.without ignored).Legible :=
  legible.filter _

/-- Every entry is read from a token of the text. -/
theorem exists_token_of_ofText (found : ofText text = .ok vector) :
    ∀ entry ∈ vector.entries, ∃ token, token <:+: text.toList ∧ ',' ∉ token ∧ Solid token ∧
      VectorEntry.read token = .ok entry := by
  simp only [ofText, read] at found
  split at found
  · cases found
    exact fun _ member => absurd member List.not_mem_nil
  · obtain ⟨entries, entriesRead, made⟩ := Except.bind_eq_ok_iff.mp found
    intro entry member
    rw [entries_of_ofEntries made] at member
    obtain ⟨token, piece, tokenRead⟩ := exists_of_mem_mapM entriesRead entry member
    simp only [readToken] at tokenRead
    split at tokenRead
    · contradiction
    · rename_i some
      refine ⟨trim token, ?_, fun comma => ?_, solid_trim (by simpa using some), tokenRead⟩
      · exact (trim_isInfix token).trans ((infix_of_mem_pieces piece).trans (trim_isInfix _))
      · exact not_mem_of_mem_pieces piece ((trim_isInfix token).subset comma)

theorem legible_of_ofText (found : ofText text = .ok vector) : vector.Legible := by
  intro entry member
  obtain ⟨token, -, noComma, solid, tokenRead⟩ := exists_token_of_ofText found entry member
  exact VectorEntry.legible_of_read tokenRead solid noComma

theorem parse_eq_ok_iff : parse text = .ok vector ↔ ofText text = .ok vector := by
  unfold parse
  cases ofText text <;> simp

theorem legible_of_parse (found : parse text = .ok vector) : vector.Legible :=
  legible_of_ofText (parse_eq_ok_iff.mp found)

theorem solid_joinTokens {token : List Char} {rest : List (List Char)}
    (solid : ∀ each ∈ token :: rest, Solid each) : Solid (joinTokens (token :: rest)) := by
  induction rest generalizing token with
  | nil => exact solid token (by simp)
  | cons next others ih =>
      have joined := ih fun each member => solid each (List.mem_cons_of_mem _ member)
      simpa [joinTokens] using (solid token (by simp)).enclose joined [',', ' ']

theorem pieces_joinTokens {token : List Char} {rest : List (List Char)}
    (noComma : ∀ each ∈ token :: rest, ',' ∉ each) :
    pieces ',' (joinTokens (token :: rest)) = token :: rest.map (' ' :: ·) := by
  induction rest generalizing token with
  | nil => exact pieces_of_not_mem (noComma token (by simp))
  | cons next others ih =>
      have later := ih fun each member => noComma each (List.mem_cons_of_mem _ member)
      rw [joinTokens, pieces_append_separator (noComma token (by simp)), pieces,
        if_neg (by decide), later]
      · rfl
      · simp

theorem readToken_write {entry : VectorEntry} (legible : entry.Legible) :
    readToken entry.write = .ok entry ∧ readToken (' ' :: entry.write) = .ok entry := by
  have solid := legible.solid_write
  have some : entry.write.isEmpty = false := by simpa using solid.ne_nil
  constructor
  · simp [readToken, solid.trim, some, VectorEntry.read_write legible]
  · simp [readToken, trim_blank_cons (by decide : isBlank ' ' = true), solid.trim, some,
      VectorEntry.read_write legible]

theorem read_write (legible : vector.Legible) : read vector.write = .ok vector := by
  cases entries : vector.entries with
  | nil =>
      have same : vector = empty := ext_entries entries
      subst same
      rfl
  | cons first rest =>
      have each : ∀ entry ∈ first :: rest, entry.Legible := entries ▸ legible
      have tokens : vector.write = joinTokens (first.write :: rest.map VectorEntry.write) := by
        rw [write, entries, List.map_cons]
      have solid : Solid vector.write := by
        rw [tokens]
        apply solid_joinTokens
        intro token member
        rw [← List.map_cons, List.mem_map] at member
        obtain ⟨entry, found, rfl⟩ := member
        exact (each entry found).solid_write
      have cut : pieces ',' vector.write =
          first.write :: rest.map fun entry => ' ' :: entry.write := by
        rw [tokens, pieces_joinTokens, List.map_map]
        · rfl
        · intro token member
          rw [← List.map_cons, List.mem_map] at member
          obtain ⟨entry, found, rfl⟩ := member
          exact (each entry found).write_noComma
      have entriesRead : (pieces ',' vector.write).mapM readToken = .ok vector.entries := by
        have others : (rest.map fun entry => ' ' :: entry.write).mapM readToken = .ok rest :=
          mapM_map_eq_ok fun entry member => (readToken_write (each entry (by simp [member]))).2
        rw [cut, entries, List.mapM_cons, others, (readToken_write (each first (by simp))).1]
        rfl
      have some : vector.write.isEmpty = false := by simpa using solid.ne_nil
      simp only [read, solid.trim, some, Bool.false_eq_true, if_false, entriesRead,
        Except.ok_bind]
      exact ofEntries_entries vector

theorem ofText_text (legible : vector.Legible) : ofText vector.text = .ok vector := by
  rw [ofText, text, String.toList_ofList]
  exact read_write legible

theorem parse_text (legible : vector.Legible) : parse vector.text = .ok vector :=
  parse_eq_ok_iff.mpr (ofText_text legible)

theorem text_empty : empty.text = "" := rfl

theorem parse_empty : parse "" = .ok empty := by
  rw [← text_empty]
  exact parse_text legible_empty

theorem mentions_of_isInfix {needle text : List Char} (found : needle <:+: text) :
    mentions needle text = true := by
  obtain ⟨before, after, rfl⟩ := found
  induction before with
  | nil =>
      cases needle with
      | nil => cases after <;> simp [mentions]
      | cons first rest => simp [mentions, List.isPrefixOf_iff_prefix]
  | cons first rest ih =>
      rw [List.cons_append, List.cons_append, mentions, ih, Bool.or_true]

/-- A text mentions the tags of the entries it is read as, however it is written. -/
theorem mentions_tag {entry : VectorEntry} (found : ofText text = .ok vector)
    (member : entry ∈ vector.entries) : mentions entry.tag.toList text.toList = true := by
  obtain ⟨token, inside, -, -, tokenRead⟩ := exists_token_of_ofText found entry member
  obtain ⟨etag, rfl, -⟩ := VectorEntry.parts_of_read tokenRead
  exact mentions_of_isInfix ((List.prefix_append ..).isInfix.trans inside)

theorem length_filter_eq_iff (keep : VectorEntry → Bool) :
    (vector.filter keep).entries.length = vector.entries.length ↔ vector.filter keep = vector :=
  ⟨fun sizes => ext_entries (List.filter_sublist.eq_of_length sizes), fun same => by rw [same]⟩

/-- A text is stripped as the vector it is read as, or stands if that has nothing to strip. -/
theorem stripText_of_ofText (found : ofText text = .ok vector) :
    stripText text = .ok (if vector.withoutTransactional = vector then none
      else some vector.withoutTransactional.text) := by
  unfold stripText
  split
  · rw [found, Except.ok_bind, Except.pure_eq_ok]
    exact congrArg Except.ok
      (ite_congr (propext (length_filter_eq_iff _)) (fun _ => rfl) fun _ => rfl)
  · rename_i unmentioned
    -- An entry with the tag would have been mentioned.
    have kept : vector.withoutTransactional = vector := filter_eq_self fun entry member => by
      cases tagged : entry.isTransactional with
      | false => rfl
      | true =>
          have tag : entry.tag = VectorEntry.transactionTag := eq_of_beq tagged
          exact absurd (tag ▸ mentions_tag found member) unmentioned
    rw [if_pos kept]

/-- Instances are removed from a text as from the vector it is read as, or the text stands if it has
none of them. -/
theorem removeText_of_ofText (found : ofText text = .ok vector) (ignored : List String) :
    removeText ignored text = .ok (if vector.countIn ignored = 0 then none
      else some (vector.without ignored).text, vector.countIn ignored) := by
  unfold removeText
  split
  · rename_i trivially
    have none : vector.countIn ignored = 0 := by
      rcases Bool.or_eq_true_iff.mp trivially with nothing | blank
      · rw [List.isEmpty_iff.mp nothing]
        exact countIn_eq_zero_iff.mpr fun _ _ => List.not_mem_nil
      · have same : text = "" := by simpa using blank
        rw [same, parse_eq_ok_iff.mp parse_empty] at found
        cases found
        rfl
    rw [if_pos none, none]
  · rw [found, Except.ok_bind]
    by_cases none : vector.countIn ignored = 0
    · simp [none]
    · simp [none]

section Standing

variable {unchanged : Prop} [Decidable unchanged] {other : ChangeVector}

theorem getD_text (same : unchanged → other = vector) :
    (if unchanged then none else some other.text).getD vector.text = other.text := by
  split
  · rename_i stands
    rw [same stands, Option.getD_none]
  · rfl

theorem ofText_getD (found : ofText text = .ok vector) (legible : other.Legible)
    (same : unchanged → other = vector) :
    ofText ((if unchanged then none else some other.text).getD text) = .ok other := by
  split
  · rename_i stands
    rw [Option.getD_none, same stands]
    exact found
  · exact ofText_text legible

end Standing

end ChangeVector

namespace Context

variable {vector : ChangeVector} {text kept : String} {ignored : List String}

/-- What is kept of the text of a vector is the text of what is kept of the vector. -/
theorem keptText_text (legible : vector.Legible) (ignored : List String) :
    keptText ignored vector.text =
      .ok (vector.withoutTransactional.without ignored).text := by
  simp only [keptText, ChangeVector.stripText_of_ofText (ChangeVector.ofText_text legible),
    ChangeVector.removeText_of_ofText (ChangeVector.ofText_text legible.withoutTransactional),
    ChangeVector.getD_text id, ChangeVector.getD_text ChangeVector.without_of_countIn,
    Except.ok_bind, Except.pure_eq_ok]

/-- What is kept of any text of a vector is read as what is kept of the vector. -/
theorem ofText_keptText (found : ChangeVector.ofText text = .ok vector)
    (done : keptText ignored text = .ok kept) :
    ChangeVector.ofText kept = .ok (vector.withoutTransactional.without ignored) := by
  have legible := (ChangeVector.legible_of_ofText found).withoutTransactional
  have stripped : ChangeVector.ofText _ = .ok vector.withoutTransactional :=
    ChangeVector.ofText_getD found legible id
  simp only [keptText, ChangeVector.stripText_of_ofText found, Except.ok_bind,
    ChangeVector.removeText_of_ofText stripped, Except.pure_eq_ok, Except.ok.injEq] at done
  rw [← done]
  exact ChangeVector.ofText_getD stripped (legible.without ignored) ChangeVector.without_of_countIn

/-- A text that is no vector is kept only as it is. -/
theorem eq_of_keptText {fault : VectorFault} (failed : ChangeVector.ofText text = .error fault)
    (done : keptText ignored text = .ok kept) : kept = text := by
  obtain ⟨stripped, strip, done⟩ := Except.bind_eq_ok_iff.mp done
  obtain rfl : stripped = none := by
    unfold ChangeVector.stripText at strip
    split at strip
    · rw [failed] at strip
      cases strip
    · cases strip
      rfl
  obtain ⟨⟨remaining, removed⟩, remove, done⟩ := Except.bind_eq_ok_iff.mp done
  unfold ChangeVector.removeText at remove
  split at remove
  · cases remove
    cases done
    rfl
  · rw [Option.getD_none, failed] at remove
    cases remove

end Context

end DocumentReplication
