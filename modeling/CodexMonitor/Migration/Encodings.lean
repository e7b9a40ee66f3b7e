import CodexMonitor.Store.Creation
import CodexMonitor.Store.Dedup
import CodexMonitor.Tree

/-!
# One value under both encoders

The Python runtime stored events and requests under the text of its `compact`; the
Rust runtime compares them with its `canonical_json`.  Key order, separators and string
escapes are the same.  Numbers are not: Python keeps an integer of any size, while the
Rust parser reads what does not fit 64 bits, and a negative zero, as a double.
-/

namespace CodexMonitor

open Transaction

/-! ## The two runtimes -/

/-- A number of a JSON text: an integer by its sign and magnitude, or a number with a fraction or
an exponent. -/
inductive Literal
  | integer (negative : Bool) (magnitude : Nat)
  | decimal (text : String)
deriving DecidableEq, Repr

def Literal.text : Literal → String
  | .integer negative magnitude => (if negative then "-" else "") ++ magnitude.repr
  | .decimal text => text

/-- The JSON library of the Rust runtime, with its reader of doubles: none when a number is out of
their range. -/
structure Serde where
  crates : Crates
  readFloat : String → Option UInt64

/-- The bits of negative zero. -/
def negativeZero : UInt64 := 0x8000000000000000

/-- A number as the Rust runtime reads it. -/
def Serde.number (serde : Serde) : Literal → Option Number
  | .integer false n =>
      if n < 2 ^ 64 then some (.posInt (UInt64.ofNat n))
      else (serde.readFloat (Literal.integer false n).text).map .float
  | .integer true n =>
      if n = 0 then some (.float negativeZero)
      else if n ≤ 2 ^ 63 then some (.negInt (Int64.ofInt (-n)))
      else (serde.readFloat (Literal.integer true n).text).map .float
  | .decimal text => (serde.readFloat text).map .float

/-- `serde_json::from_str` on a document. -/
def Serde.parse (serde : Serde) (document : Tree Literal) : Option Value :=
  (document.read serde.number).map Tree.value

/-- A number of the Python runtime. -/
inductive PyNumber
  | int (i : Int)
  | float (bits : UInt64)
deriving DecidableEq, Repr

/-- Python's `float.__repr__` and `float`, on finite doubles. -/
structure Python where
  floatRepr : UInt64 → String
  readFloat : String → Option UInt64

/-- A number as the Python runtime reads it. -/
def Python.number (python : Python) : Literal → Option PyNumber
  | .integer negative n => some (.int (if negative then -n else n))
  | .decimal text => (python.readFloat text).map .float

/-- `json.loads` on a document. -/
def Python.parse (python : Python) (document : Tree Literal) : Option (Tree PyNumber) :=
  document.read python.number

/-- `int.__repr__` and `float.__repr__`. -/
def PyNumber.text (python : Python) : PyNumber → String
  | .int i => toString i
  | .float bits => python.floatRepr bits

/-- `'\\u{0:04x}'.format(n)`. -/
def unicodeEscape (n : Nat) : List Char :=
  ['\\', 'u', hexDigit (n / 4096 % 16), hexDigit (n / 256 % 16), hexDigit (n / 16 % 16),
    hexDigit (n % 16)]

/-- One character of a string under Python's `encode_basestring`. -/
def pyEscape (c : Char) : List Char :=
  match c.toNat with
  | 0x5c => ['\\', '\\']
  | 0x22 => ['\\', Char.ofNat 0x22]
  | 0x08 => ['\\', 'b']
  | 0x0c => ['\\', 'f']
  | 0x0a => ['\\', 'n']
  | 0x0d => ['\\', 'r']
  | 0x09 => ['\\', 't']
  | n => if n < 0x20 then unicodeEscape n else [c]

/-- `encode_basestring`. -/
def encodeBasestring (s : String) : String :=
  "\"" ++ String.ofList (s.toList.flatMap pyEscape) ++ "\""

/-- `compact`: `json.dumps` with sorted keys, without white space and without ASCII escapes. -/
def compact (python : Python) (value : Tree PyNumber) : String :=
  value.text encodeBasestring (PyNumber.text python)

/-! ## Strings -/

theorem pyEscape_eq (c : Char) : pyEscape c = escapeChar c := by
  have hlow : ∀ c ∈ escapedChars, pyEscape c = escapeChar c := by decide
  rcases escapeChar_cases c with hc | ⟨hslash, hquote, hplain⟩
  · exact hlow c hc
  · by_cases hsmall : c.toNat < 0x20
    · refine hlow c (List.mem_append_left _ (List.mem_map.mpr ⟨c.toNat, ?_, Char.ofNat_toNat c⟩))
      exact List.mem_range.mpr hsmall
    · have hne : ∀ d : Char, c ≠ d → c.toNat ≠ d.toNat := fun d hcd heq =>
        hcd (by rw [← Char.ofNat_toNat c, heq, Char.ofNat_toNat])
      have h22 : c.toNat ≠ 0x22 := hne Decoding.quote hquote
      have h5c : c.toNat ≠ 0x5c := hne '\\' hslash
      rw [hplain]
      unfold pyEscape
      split <;> first | omega | skip
      rw [if_neg hsmall]

theorem encodeBasestring_eq : encodeBasestring = stringText := by
  funext s
  rw [encodeBasestring, stringText, funext pyEscape_eq]

/-! ## Numbers -/

/-- Python's `repr` writes a double with the digits of a JSON number, with a point or an
exponent. -/
structure Python.PrintsFloats (python : Python) : Prop where
  numeric : ∀ bits, ∀ c ∈ (python.floatRepr bits).toList,
    c.isDigit = true ∨ c ∈ ['-', '+', '.', 'e', 'E']
  fractional : ∀ bits, '.' ∈ (python.floatRepr bits).toList ∨ 'e' ∈ (python.floatRepr bits).toList

/-- Both runtimes write the number alike: an integer is one that the Rust parser keeps as an
integer, and for any other number the two float printers agree on the doubles that the two
parsers read. -/
def Literal.Alike (serde : Serde) (python : Python) : Literal → Prop
  | .integer false n => n < 2 ^ 64
  | .integer true n => 0 < n ∧ n ≤ 2 ^ 63
  | .decimal text => (serde.readFloat text).map serde.crates.floatText =
      (python.readFloat text).map python.floatRepr

section numbers

variable {serde : Serde} {python : Python}

theorem floatText_ne_int (h : serde.crates.PrintsFloats) (bits : UInt64) (i : Int) :
    serde.crates.floatText bits ≠ toString i := by
  intro heq
  rcases h.fractional bits with hc | hc
  · rw [heq] at hc
    rcases intText_chars i _ hc with hdigit | hminus
    · exact absurd hdigit (by decide)
    · exact absurd hminus (by decide)
  · rw [heq] at hc
    rcases intText_chars i _ hc with hdigit | hminus
    · exact absurd hdigit (by decide)
    · exact absurd hminus (by decide)

/-- A number that both runtimes read has one text exactly when it is alike. -/
theorem number_alike (h : serde.crates.PrintsFloats) {n : Literal} {a : Number} {b : PyNumber}
    (ha : serde.number n = some a) (hb : python.number n = some b) :
    b.text python = a.text serde.crates ↔ n.Alike serde python := by
  have hfloat : ∀ {text : String} {i : Int}, (serde.readFloat text).map Number.float = some a →
      toString i ≠ a.text serde.crates := by
    intro text i hread
    obtain ⟨bits, _, rfl⟩ := Option.map_eq_some_iff.mp hread
    exact fun heq => floatText_ne_int h bits i heq.symm
  cases n with
  | integer negative n =>
      obtain rfl := Option.some.inj hb
      cases negative with
      | false =>
          rw [Serde.number] at ha
          split at ha
          · rename_i hn
            obtain rfl := Option.some.inj ha
            refine iff_of_true ?_ hn
            show toString (n : Int) = toString ((UInt64.ofNat n).toNat : Int)
            rw [UInt64.toNat_ofNat_of_lt' hn]
          · rename_i hn
            exact iff_of_false (hfloat ha) hn
      | true =>
          rw [Serde.number] at ha
          split at ha
          · rename_i hn
            obtain rfl := Option.some.inj ha
            subst hn
            exact iff_of_false (fun heq => floatText_ne_int h _ _ heq.symm) (by simp [Literal.Alike])
          rename_i hzero
          split at ha
          · rename_i hn
            obtain rfl := Option.some.inj ha
            refine iff_of_true ?_ ⟨Nat.pos_of_ne_zero hzero, hn⟩
            show toString (-n : Int) = toString (Int64.ofInt (-n)).toInt
            rw [Int64.toInt_ofInt_of_le (by omega) (by omega)]
          · rename_i hn
            exact iff_of_false (hfloat ha) fun halike => hn halike.2
  | decimal text =>
      obtain ⟨bits, hbits, rfl⟩ := Option.map_eq_some_iff.mp ha
      obtain ⟨bits', hbits', rfl⟩ := Option.map_eq_some_iff.mp hb
      show python.floatRepr bits' = serde.crates.floatText bits ↔ _ = _
      rw [hbits, hbits', Option.map_some, Option.map_some, Option.some.injEq]
      exact eq_comm

/-- The text of a literal under a runtime, zero when the runtime rejects it. -/
def Serde.print (serde : Serde) (n : Literal) : String :=
  ((serde.number n).map (Number.text serde.crates)).getD "0"

def Python.print (python : Python) (n : Literal) : String :=
  ((python.number n).map (PyNumber.text python)).getD "0"

theorem zero_numeral : Numeral "0" := ⟨by decide, by decide⟩

theorem int_numeral (i : Int) : Numeral (toString i) where
  ne_nil := by
    intro hnil
    cases i with
    | ofNat n =>
        have hlist : n.repr.toList = [] := hnil
        rw [Nat.toList_repr] at hlist
        exact Nat.toDigits_ne_nil hlist
    | negSucc n =>
        rw [negText_toList] at hnil
        cases hnil
  chars := by
    intro c hc
    rcases intText_chars i c hc with hdigit | rfl
    · exact Or.inl hdigit
    · exact Or.inr List.mem_cons_self

theorem Serde.print_numeral (h : serde.crates.PrintsFloats) (n : Literal) :
    Numeral (serde.print n) := by
  unfold Serde.print
  cases serde.number n with
  | none => exact zero_numeral
  | some a => exact ⟨number_text_ne_nil h a, a.text_chars h⟩

theorem Python.print_numeral (h : python.PrintsFloats) (n : Literal) :
    Numeral (python.print n) := by
  unfold Python.print
  cases python.number n with
  | none => exact zero_numeral
  | some a =>
      cases a with
      | int i => exact int_numeral i
      | float bits =>
          refine ⟨fun hnil => ?_, h.numeric bits⟩
          have hnil : (python.floatRepr bits).toList = [] := hnil
          rcases h.fractional bits with hc | hc <;> rw [hnil] at hc <;> cases hc

/-- The two encoders agree on a document exactly when every number of it is alike. -/
theorem compact_eq_iff (hserde : serde.crates.PrintsFloats) (hpython : python.PrintsFloats)
    {document : Tree Literal} {v : Value} {w : Tree PyNumber}
    (hv : serde.parse document = some v) (hw : python.parse document = some w) :
    compact python w = canonicalJson serde.crates v ↔
      ∀ n ∈ document.numbers, n.Alike serde python := by
  obtain ⟨u, hu, rfl⟩ := Option.map_eq_some_iff.mp hv
  have hpy : compact python w = document.text stringText python.print := by
    rw [compact, encodeBasestring_eq]
    refine read_text (PyNumber.text python) (fun n m hn => ?_) document w hw
    rw [Python.print, hn]
    rfl
  have hrs : canonicalJson serde.crates u.value = document.text stringText serde.print := by
    rw [canonicalJson_value]
    refine read_text (Number.text serde.crates) (fun n m hn => ?_) document u hu
    rw [Serde.print, hn]
    rfl
  rw [hpy, hrs, text_eq_iff (Python.print_numeral hpython) (Serde.print_numeral hserde)]
  have halike : ∀ n ∈ document.numbers,
      (python.print n = serde.print n ↔ n.Alike serde python) := by
    intro n hn
    obtain ⟨a, ha⟩ := read_numbers document u hu n hn
    obtain ⟨b, hb⟩ := read_numbers document w hw n hn
    rw [Python.print, Serde.print, ha, hb]
    exact number_alike hserde ha hb
  constructor
  · intro h n hn
    exact (halike n hn).mp (h n hn)
  · intro h n hn
    exact (halike n hn).mpr (h n hn)

end numbers

/-! ## Retries after a migration -/

/-- The source of the stored event `e` sends the value `v` again under its id. -/
structure Db.Retries (crates : Crates) (db : Db) (binding source id : String) (v : Value)
    (e : Event) : Prop where
  identifier : isIdentifier binding = true
  envelope : v.IsEnvelope crates source id
  routed : ∃ b ∈ db.bindings, b.name = binding ∧ source ∈ b.sources
  mem : e ∈ db.events
  slot : e.binding = binding ∧ e.source = source ∧ e.eventId = id

/-- **Where the encodings agree.**  For every document that both parsers accept, the two canonical
texts are one string exactly when every number of it is alike.  Then, and only then, the retry of a
migrated event is recognised; and a migrated request that is created again is found. -/
theorem encodings_agree_iff (serde : Serde) (python : Python)
    (hserde : serde.crates.PrintsFloats) (hpython : python.PrintsFloats)
    (document : Tree Literal) (v : Value) (w : Tree PyNumber)
    (hv : serde.parse document = some v) (hw : python.parse document = some w) :
    (compact python w = canonicalJson serde.crates v ↔
      ∀ n ∈ document.numbers, n.Alike serde python) ∧
    (∀ db binding source id e uuid now, db.Retries serde.crates binding source id v e →
      e.envelope = compact python w →
        ((ingest serde.crates binding v uuid now).run db = (.ok ⟨e.id, e.state, true⟩, db) ↔
          ∀ n ∈ document.numbers, n.Alike serde python)) ∧
    ((∀ n ∈ document.numbers, n.Alike serde python) →
      ∀ db thread source key deliveryId expiresAt r uuid now,
        db.Recreates serde.crates thread source key deliveryId v expiresAt r →
          r.payload = compact python w → serde.crates.ReadsBack v →
            ∃ payload, (requestCreate serde.crates thread source key deliveryId v expiresAt uuid
              now).run db = (.ok ⟨⟨r, payload⟩, true⟩, db)) := by
  have hagree := compact_eq_iff hserde hpython hv hw
  refine ⟨hagree, ?_, ?_⟩
  · intro db binding source id e uuid now hretry htext
    obtain ⟨b, hb, hname, hsource⟩ := hretry.routed
    rw [ingest_compares hb hname hsource hretry.mem hretry.slot hretry.identifier hretry.envelope,
      htext, ← hagree]
    by_cases heq : compact python w = canonicalJson serde.crates v
    · rw [if_pos heq]
      exact iff_of_true rfl heq
    · rw [if_neg heq]
      exact iff_of_false nofun heq
  · intro halike db thread source key deliveryId expiresAt r uuid now hrecreate htext hreads
    exact requestCreate_finds uuid now hrecreate (htext.trans (hagree.mpr halike)) hreads

/-! ## A number that one runtime rounds -/

/-- The double next to `2 ^ 64`. -/
def bigBits : UInt64 := 0x43F0000000000000

/-- A JSON library that knows how `2 ^ 64` is read and written. -/
def sampleSerde : Serde where
  crates :=
    { exactPrinter with
      floatText := fun bits =>
        if bits = bigBits then "1.8446744073709552e19" else exactPrinter.floatText bits }
  readFloat text := if text = "18446744073709551616" then some bigBits else none

/-- Python's floats, which the samples have none of. -/
def samplePython : Python where
  floatRepr := exactPrinter.floatText
  readFloat _ := none

theorem samplePython_printsFloats : samplePython.PrintsFloats where
  numeric := exactPrinter_printsFloats.numeric
  fractional := exactPrinter_printsFloats.fractional

theorem sampleSerde_printsFloats : sampleSerde.crates.PrintsFloats where
  injective := by
    have hbig : ∀ bits, exactPrinter.floatText bits ≠ "1.8446744073709552e19" := by
      intro bits heq
      have hnone := exactPrinter_no_exponent bits
      rw [heq] at hnone
      exact hnone (by decide)
    intro a b h
    simp only [sampleSerde] at h
    by_cases ha : a = bigBits
    · by_cases hb : b = bigBits
      · exact ha.trans hb.symm
      · rw [if_pos ha, if_neg hb] at h
        exact absurd h.symm (hbig b)
    · by_cases hb : b = bigBits
      · rw [if_neg ha, if_pos hb] at h
        exact absurd h (hbig a)
      · rw [if_neg ha, if_neg hb] at h
        exact exactPrinter_printsFloats.injective a b h
  numeric := by
    have hbig : ∀ c ∈ "1.8446744073709552e19".toList,
        c.isDigit = true ∨ c ∈ ['-', '+', '.', 'e', 'E'] := by
      decide
    intro bits c hc
    simp only [sampleSerde] at hc
    by_cases hbits : bits = bigBits
    · rw [if_pos hbits] at hc
      exact hbig c hc
    · rw [if_neg hbits] at hc
      exact exactPrinter_printsFloats.numeric bits c hc
  fractional := by
    intro bits
    simp only [sampleSerde]
    by_cases hbits : bits = bigBits
    · rw [if_pos hbits]
      exact Or.inl (by decide)
    · rw [if_neg hbits]
      exact exactPrinter_printsFloats.fractional bits

/-- An event with a number in its data, as its source sends it. -/
def numberedEvent {ν : Type} (n : ν) : Tree ν :=
  .object [("id", .string "build-1"), ("source", .string "ci"), ("type", .string "build.finished"),
    ("data", .object [("size", .number n)])]

/-- The event is taken in with a small number. -/
def smallIntake : Except StoreError Receipt × Db :=
  (ingest sampleSerde.crates "deploy" (numberedEvent (.posInt 3)).value (sampleUuid 1) 10).run
    (Db.after sampleSerde.crates (sampleOps.take 1))

/-- Both runtimes write a small number alike, so the retry of a migrated event is recognised. -/
theorem encodings_agree_sample :
    compact samplePython (numberedEvent (.int 3)) =
        canonicalJson sampleSerde.crates (numberedEvent (.posInt 3)).value ∧
      ∃ e, (ingest sampleSerde.crates "deploy" (numberedEvent (.posInt 3)).value (sampleUuid 2)
        20).run smallIntake.2 = (.ok ⟨e, .pending, true⟩, smallIntake.2) := by
  have halike : ∀ n ∈ (numberedEvent (Literal.integer false 3)).numbers,
      n.Alike sampleSerde samplePython := by
    intro n hn
    obtain rfl := List.mem_singleton.mp hn
    show 3 < 2 ^ 64
    decide
  have hagree := encodings_agree_iff sampleSerde samplePython sampleSerde_printsFloats
    samplePython_printsFloats (numberedEvent (.integer false 3)) (numberedEvent (.posInt 3)).value
    (numberedEvent (.int 3)) rfl rfl
  have htext := hagree.1.mpr halike
  have hreceipt : smallIntake.1 = .ok ⟨(sampleUuid 1).text, .pending, false⟩ := by decide
  have hrun : (ingest sampleSerde.crates "deploy" (numberedEvent (.posInt 3)).value (sampleUuid 1)
      10).run (Db.after sampleSerde.crates (sampleOps.take 1)) =
        (.ok ⟨(sampleUuid 1).text, .pending, false⟩, smallIntake.2) := Prod.ext hreceipt rfl
  obtain ⟨source, id, e, hbinding, henvelope, hholds, _⟩ := ingest_holds hrun
  have hretry := (hagree.2.1 smallIntake.2 "deploy" source id e (sampleUuid 2) 20
    ⟨hbinding, henvelope, hholds.routed, hholds.mem, hholds.binding_eq, hholds.source_eq,
      hholds.id_eq⟩ (hholds.envelope_eq.trans htext.symm)).mpr halike
  have hstate : ∀ e ∈ smallIntake.2.events.rows, e.state = .pending := by decide
  rw [hstate e hholds.mem] at hretry
  exact ⟨htext, e.id, hretry⟩

/-- An event with the number `2 ^ 64` has two texts, so its retry conflicts with what was
migrated. -/
theorem encodings_agree_fails :
    ¬ ∀ (serde : Serde) (python : Python) (document : Tree Literal) (v : Value)
        (w : Tree PyNumber), serde.crates.PrintsFloats → python.PrintsFloats →
      serde.parse document = some v → python.parse document = some w →
        compact python w = canonicalJson serde.crates v := by
  intro h
  have hv : sampleSerde.parse (numberedEvent (.integer false (2 ^ 64))) =
      some (numberedEvent (.float bigBits)).value := rfl
  have hw : samplePython.parse (numberedEvent (.integer false (2 ^ 64))) =
      some (numberedEvent (.int (2 ^ 64))) := rfl
  have htext := h sampleSerde samplePython _ _ _ sampleSerde_printsFloats
    samplePython_printsFloats hv hw
  have halike := (compact_eq_iff sampleSerde_printsFloats samplePython_printsFloats hv hw).mp htext
  have hsmall : 2 ^ 64 < 2 ^ 64 := halike (.integer false (2 ^ 64)) (List.mem_singleton.mpr rfl)
  exact absurd hsmall (by decide)

end CodexMonitor
