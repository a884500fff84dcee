import ExactAlgebra.Proofs.Json.Token
import ExactAlgebra.Proofs.Json.WellFormed

/-!
# JSON files, read back

A printed value is read as a whole: the reader that comes to it at the place of a value goes on
behind it as if it had been given the value at once. For words, numbers and strings this is one
token. An array or an object is read item by item, with those that are behind the reader on its
stack, and in the end they are all there, in order.

## Main statements

* `readFrom_space`, `readFrom_token` — the reader at a blank, and at a token;
* `Collection.readFrom_items`, `Collection.readFrom_block` — items, and what stands around them;
* `isRead_array`, `isRead_object` — arrays and objects;
* `parse?_print` — a well-formed value is read back from its file.

## Main definitions

* `Reader.readFrom` — the reader behind the rest of a text;
* `IsRead` — a value that is read as a whole;
* `Collection` — items between a pair of marks.
-/

namespace ExactAlgebra.Json

open ExactAlgebra.Text

/-! ## The reader on a text -/

/-- **The reader behind a text**, unless something in it is wrong. -/
def Reader.readFrom (r : Reader) (cs : List Char) : Option Reader :=
  (tokensFrom? 0 cs).bind fun ts => ts.foldlM Reader.step r

/-- Characters of the token before are skipped. -/
theorem tokensFrom?_skip (skip : ℕ) (cs : List Char) :
    tokensFrom? skip cs = tokensFrom? 0 (cs.drop skip) := by
  induction cs generalizing skip with
  | nil => cases skip <;> rfl
  | cons c rest ih =>
    cases skip with
    | zero => rfl
    | succ skip => exact ih skip

theorem readFrom_nil (r : Reader) : r.readFrom [] = some r :=
  rfl

theorem readFrom_space (r : Reader) {c : Char} (space : isSpace c = true) (rest : List Char) :
    r.readFrom (c :: rest) = r.readFrom rest := by
  rw [Reader.readFrom, tokensFrom?, if_pos space, Reader.readFrom]

/-- No token begins with a blank. -/
theorem token?_space {c : Char} (space : isSpace c = true) (rest : List Char) :
    token? (c :: rest) = none := by
  simp only [isSpace, Bool.or_eq_true, decide_eq_true_eq] at space
  obtain ((rfl | rfl) | rfl) | rfl := space <;> rfl

/-- **The reader at a token.** -/
theorem readFrom_token (r : Reader) {cs rest : List Char} {t : Token} (nonempty : cs ≠ [])
    (read : token? (cs ++ rest) = some (t, rest)) :
    r.readFrom (cs ++ rest) = (r.step t).bind fun next => next.readFrom rest := by
  cases cs with
  | nil => exact absurd rfl nonempty
  | cons c more =>
    rw [List.cons_append] at read ⊢
    have noSpace : isSpace c ≠ true := by
      intro space
      rw [token?_space space] at read
      cases read
    have behind : tokensFrom? ((more ++ rest).length - rest.length) (more ++ rest) =
        tokensFrom? 0 rest := by
      rw [tokensFrom?_skip, List.length_append, Nat.add_sub_cancel, List.drop_left]
    simp only [Reader.readFrom, tokensFrom?, if_neg noSpace, read, behind]
    cases tokensFrom? 0 rest with
    | none => exact (Option.bind_fun_none _).symm
    | some ts => rfl

/-- The blanks of a new line. -/
theorem readFrom_newLine (r : Reader) (level : ℕ) (rest : List Char) :
    r.readFrom ((newLine level).toList ++ rest) = r.readFrom rest := by
  have blanks (n : ℕ) : r.readFrom (List.replicate n ' ' ++ rest) = r.readFrom rest := by
    induction n with
    | zero => rfl
    | succ n ih => rw [List.replicate_succ, List.cons_append, readFrom_space r rfl, ih]
  rw [newLine, String.toList_ofList, List.cons_append, readFrom_space r rfl, blanks]

theorem endsValue_newLine (level : ℕ) (rest : List Char) :
    EndsValue ((newLine level).toList ++ rest) := by
  rw [newLine, String.toList_ofList]
  rintro c ⟨⟩
  exact .inr rfl

/-! ## Values -/

/-- **A value that is read as a whole** in the place of one. -/
def IsRead (value : Json) : Prop :=
  ∀ (level : ℕ) (opened : List Open) (e : Expecting) (rest : List Char),
    e = .value ∨ e = .firstItem → EndsValue rest →
      Reader.readFrom ⟨e, opened, none⟩ ((printAt level value).toList ++ rest) =
        (Reader.complete value opened).bind fun next => next.readFrom rest

/-- A value that is one token. -/
theorem isRead_token {value : Json} {text : String} {t : Token}
    (printed : ∀ level, printAt level value = text) (nonempty : text.toList ≠ [])
    (step : ∀ opened, Reader.beginValue opened t = Reader.complete value opened)
    (noEnd : t ≠ .rightBracket)
    (read : ∀ rest, EndsValue rest → token? (text.toList ++ rest) = some (t, rest)) :
    IsRead value := by
  intro level opened e rest place ends
  rw [printed, readFrom_token _ nonempty (read rest ends), ← step]
  congr 1
  rcases place with rfl | rfl
  · rfl
  · cases t <;> first | rfl | exact absurd rfl noEnd

/-- A word or a number. -/
theorem isRead_scalar {value : Json} {text : String} (printed : ∀ level, printAt level value = text)
    (nonempty : text.toList ≠ [])
    (read : ∀ rest, EndsValue rest →
      token? (text.toList ++ rest) = some (.scalar value, rest)) : IsRead value :=
  isRead_token printed nonempty (fun _ => rfl) (by simp) read

theorem isRead_null : IsRead .null :=
  isRead_scalar (fun _ => by rw [printAt]) (by decide) fun _ _ => rfl

theorem isRead_bool (b : Bool) : IsRead (.bool b) := by
  cases b with
  | true => exact isRead_scalar (fun _ => by rw [printAt, if_pos rfl]) (by decide) fun _ _ => rfl
  | false =>
    exact isRead_scalar (fun _ => by rw [printAt, if_neg (by decide)]) (by decide) fun _ _ => rfl

theorem isRead_int (n : ℤ) : IsRead (.int n) := by
  refine isRead_scalar (fun _ => by rw [printAt]) ?_ fun _ ends => token?_int n ends
  rw [intText, String.toList_ofList, intChars]
  split
  · simp
  · exact natChars_ne_nil _

theorem isRead_float {x : Binary64} (real : x.IsReal) : IsRead (.float x) := by
  refine isRead_scalar (fun _ => by rw [printAt]) ?_ fun _ ends => token?_float real ends
  intro empty
  have read : token? _ = some (_, []) := token?_float real (by simp [EndsValue])
  rw [empty] at read
  cases read

theorem isRead_string (s : String) : IsRead (.string s) :=
  isRead_token (fun _ => by rw [printAt]) (by simp [stringText]) (fun _ => rfl) (by simp)
    fun rest _ => token?_string s rest

/-! ## Items between marks -/

/-- A mark by itself is a token. -/
theorem readFrom_mark (r : Reader) {c : Char} {t : Token} (mark : mark? c = some t)
    (rest : List Char) :
    r.readFrom (c :: rest) = (r.step t).bind fun next => next.readFrom rest := by
  have read : token? ([c] ++ rest) = some (t, rest) := by
    rw [List.singleton_append, token?, mark]
  exact readFrom_token r (by simp) read

/-- **Items between a pair of marks**, and how the reader collects them: `frame` is what is open,
with what has been read of it so far. -/
structure Collection (α β : Type) where
  left : Char
  right : Char
  opening : Token
  closing : Token
  frame : β → Open
  start : β
  add : β → α → β
  text : ℕ → α → String
  first : Expecting
  next : Expecting
  mark_left : mark? left = some opening
  mark_right : mark? right = some closing
  opens (e : Expecting) (outer : List Open) : e = .value ∨ e = .firstItem →
    Reader.step ⟨e, outer, none⟩ opening = some ⟨first, frame start :: outer, none⟩
  comma (done : β) (outer : List Open) :
    Reader.step ⟨.separator, frame done :: outer, none⟩ .comma =
      some ⟨next, frame done :: outer, none⟩
  empty (outer : List Open) :
    Reader.step ⟨first, frame start :: outer, none⟩ closing =
      Reader.close (frame start :: outer) closing
  closes (done : β) (outer : List Open) :
    Reader.step ⟨.separator, frame done :: outer, none⟩ closing =
      Reader.close (frame done :: outer) closing

namespace Collection

variable {α β : Type} (c : Collection α β)

/-- An item that is read as a whole. -/
def IsItem (i : α) : Prop :=
  ∀ (level : ℕ) (e : Expecting) (done : β) (outer : List Open) (rest : List Char),
    e = c.next ∨ e = c.first → EndsValue rest →
      Reader.readFrom ⟨e, c.frame done :: outer, none⟩ ((c.text level i).toList ++ rest) =
        Reader.readFrom ⟨.separator, c.frame (c.add done i) :: outer, none⟩ rest

variable {c}

/-- **A run of items is read one by one**, with a comma leading from one to the next. -/
theorem readFrom_items (level : ℕ) {items : List α} {item : α}
    (each : ∀ i ∈ item :: items, c.IsItem i) {e : Expecting} (place : e = c.next ∨ e = c.first)
    (done : β) (outer : List Open) {rest : List Char} (ends : EndsValue rest) :
    Reader.readFrom ⟨e, c.frame done :: outer, none⟩
      ((("," ++ newLine level).intercalate ((item :: items).map (c.text level))).toList ++ rest) =
      Reader.readFrom ⟨.separator, c.frame ((item :: items).foldl c.add done) :: outer, none⟩
        rest := by
  have here := each item List.mem_cons_self level e done outer
  -- along the items, with what has been collected and the state in which the next one is read
  induction items generalizing item done e with
  | nil => simpa using here rest place ends
  | cons second items ih =>
    have others := ih (fun i later => each i (List.mem_cons_of_mem _ later)) (.inl rfl)
      (c.add done item) (each second (by simp) level _ _ outer)
    rw [List.map_cons, List.map_cons, String.intercalate_cons_cons]
    simp only [String.toList_append, List.append_assoc]
    rw [here _ place (by rintro c ⟨⟩; exact .inl rfl)]
    change Reader.readFrom _ (',' :: ((newLine level).toList ++ _)) = _
    rw [readFrom_mark _ rfl, c.comma, Option.bind_some, readFrom_newLine]
    exact others

/-- **What stands between a pair of marks** is read up to the closing one. -/
theorem readFrom_block (level : ℕ) {items : List α} (each : ∀ i ∈ items, c.IsItem i)
    {e : Expecting} (place : e = .value ∨ e = .firstItem) (outer : List Open)
    (rest : List Char) :
    Reader.readFrom ⟨e, outer, none⟩
      ((block (String.singleton c.left) (String.singleton c.right) level
        (items.map (c.text (level + 1)))).toList ++ rest) =
      (Reader.close (c.frame (items.foldl c.add c.start) :: outer) c.closing).bind
        fun next => next.readFrom rest := by
  have enter (more : List Char) : Reader.readFrom ⟨e, outer, none⟩ (c.left :: more) =
      Reader.readFrom ⟨c.first, c.frame c.start :: outer, none⟩ more := by
    rw [readFrom_mark _ c.mark_left, c.opens e outer place, Option.bind_some]
  -- without items the marks stand side by side, with no new line between them
  cases items with
  | nil =>
    simp only [block, List.map_nil, String.toList_append, String.toList_singleton,
      List.cons_append, List.nil_append, List.foldl_nil]
    rw [enter, readFrom_mark _ c.mark_right, c.empty]
  | cons item items =>
    have inner := readFrom_items (level + 1) each (.inr rfl) c.start outer
      (endsValue_newLine level (c.right :: rest))
    rw [List.map_cons] at inner ⊢
    simp only [block, String.toList_append (s := _ ++ _), String.toList_singleton,
      String.toList_append (s := String.singleton c.left),
      List.cons_append, List.nil_append, List.append_assoc]
    rw [enter, readFrom_newLine, inner, readFrom_newLine, readFrom_mark _ c.mark_right, c.closes]

end Collection

/-! ## Arrays and objects -/

theorem printItems_eq (level : ℕ) (items : List Json) :
    printItems level items = items.map (printAt level) := by
  induction items with
  | nil => rw [printItems]; rfl
  | cons item rest ih => rw [printItems, ih]; rfl

/-- How arrays are read; the items so far are kept in reverse. -/
def arrays : Collection Json (List Json) where
  left := '['
  right := ']'
  opening := .leftBracket
  closing := .rightBracket
  frame := .array
  start := []
  add := fun done i => i :: done
  text := printAt
  first := .firstItem
  next := .value
  mark_left := rfl
  mark_right := rfl
  opens := by rintro e outer (rfl | rfl) <;> rfl
  comma := fun _ _ => rfl
  empty := fun _ => rfl
  closes := fun _ _ => rfl

/-- A member of an object at a level. -/
def memberText (level : ℕ) (member : String × Json) : String :=
  stringText member.1 ++ ": " ++ printAt level member.2

/-- How objects are read. -/
def objects : Collection (String × Json) Members where
  left := '\x7b'
  right := '\x7d'
  opening := .leftBrace
  closing := .rightBrace
  frame := .object
  start := []
  add := fun done member => done.put member.1 member.2
  text := memberText
  first := .firstName
  next := .name
  mark_left := rfl
  mark_right := rfl
  opens := by rintro e outer (rfl | rfl) <;> rfl
  comma := fun _ _ => rfl
  empty := fun _ => rfl
  closes := fun _ _ => rfl

theorem isRead_array {items : List Json} (each : ∀ i ∈ items, IsRead i) :
    IsRead (.array items) := by
  have item (i : Json) (here : i ∈ items) : arrays.IsItem i := by
    intro level e done outer rest place ends
    exact each i here level (.array done :: outer) e rest place ends
  have collected : items.foldl arrays.add [] = items.reverse := by simp [arrays]
  intro level outer e rest place _
  rw [printAt, printItems_eq]
  refine (Collection.readFrom_block level item place outer rest).trans ?_
  change (Reader.complete (.array (items.foldl arrays.add []).reverse) outer).bind _ = _
  rw [collected, List.reverse_reverse]

theorem printMembers_eq (level : ℕ) (members : Members) :
    printMembers level members = members.map (memberText level) := by
  induction members with
  | nil => rw [printMembers]; rfl
  | cons member rest ih => rw [printMembers, ih]; rfl

/-- New members come last, in their order. -/
theorem foldl_put {members : Members} (done : Members)
    (distinct : (done.names ++ members.names).Nodup) :
    members.foldl objects.add done = done ++ members := by
  induction members generalizing done with
  | nil => exact (List.append_nil done).symm
  | cons member rest ih =>
    have new : member.1 ∉ done.names := by
      intro old
      exact List.disjoint_of_nodup_append distinct old List.mem_cons_self
    have later :
        ((done ++ [(member.1, member.2)] : Members).names ++ Members.names rest).Nodup := by
      simpa [Members.names] using distinct
    rw [List.foldl_cons]
    change rest.foldl objects.add (done.put member.1 member.2) = _
    rw [Members.put_of_new new, ih _ later, List.append_assoc]
    rfl

theorem isRead_object {members : Members} (distinct : members.names.Nodup)
    (each : ∀ member ∈ members, IsRead member.2) : IsRead (.object members) := by
  have item (member : String × Json) (here : member ∈ members) : objects.IsItem member := by
    intro level e done outer rest place ends
    have named : Reader.step ⟨e, .object done :: outer, none⟩ (.string member.1) =
        some ⟨.colon, .member member.1 done :: outer, none⟩ := by
      rcases place with rfl | rfl <;> rfl
    -- the name, the colon and the blank behind it, and then the value
    have colon : Reader.step ⟨.colon, .member member.1 done :: outer, none⟩ .colon =
        some ⟨.value, .member member.1 done :: outer, none⟩ := rfl
    change Reader.readFrom ⟨e, .object done :: outer, none⟩
        ((memberText level member).toList ++ rest) =
      Reader.readFrom ⟨.separator, .object (done.put member.1 member.2) :: outer, none⟩ rest
    rw [memberText, String.toList_append, String.toList_append, List.append_assoc,
      List.append_assoc, readFrom_token _ (by simp [stringText]) (token?_string member.1 _), named,
      Option.bind_some]
    change Reader.readFrom _ (':' :: ' ' :: ((printAt level member.2).toList ++ rest)) = _
    rw [readFrom_mark _ rfl, colon, Option.bind_some, readFrom_space _ rfl,
      each member here level _ .value rest (.inl rfl) ends]
    rfl
  intro level outer e rest place _
  rw [printAt, printMembers_eq]
  refine (Collection.readFrom_block level item place outer rest).trans ?_
  change (Reader.complete (.object (members.foldl objects.add [])) outer).bind _ = _
  rw [foldl_put [] distinct, List.nil_append]

/-! ## Files -/

/-- A well-formed value is read as a whole. -/
theorem IsWellFormed.isRead {value : Json} (wellFormed : value.IsWellFormed) : IsRead value := by
  induction wellFormed with
  | null => exact isRead_null
  | bool b => exact isRead_bool b
  | int n => exact isRead_int n
  | float real => exact isRead_float real
  | string s => exact isRead_string s
  | array _ ih => exact isRead_array ih
  | object distinct _ ih => exact isRead_object distinct ih

/-- **A well-formed value is read back from its file.** -/
theorem parse?_print {value : Json} (wellFormed : value.IsWellFormed) :
    parse? (print value) = some value := by
  have read := wellFormed.isRead 0 [] .value [] (.inl rfl) (by simp [EndsValue])
  rw [List.append_nil, Reader.complete, Option.bind_some, readFrom_nil] at read
  have parsed : parse? (print value) =
      (Reader.readFrom ⟨.value, [], none⟩ (printAt 0 value).toList).bind Reader.result := by
    rw [Reader.readFrom, Option.bind_assoc]
    rfl
  rw [parsed, read, Option.bind_some]

end ExactAlgebra.Json
