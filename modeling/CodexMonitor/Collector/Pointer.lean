import CodexMonitor.Lib.Text
import CodexMonitor.Selection

/-!
# JSON pointers, byte by byte

The sampler reads a pointer with an index into the bytes of each part.  The scan never
cuts a character, and reads of a part what replacing its escapes character by character
reads.  So a pointer is accepted exactly when it is the encoding of the tokens it gives,
within the bounds on bytes and depth.
-/

namespace CodexMonitor.Scanner

/-! ## The scan -/

inductive Fault
  | invalid | tooDeep | escape
  /-- the text is cut within a character, or read past its end, where the program panics -/
  | panicked
deriving DecidableEq, Repr

/-- The bytes of a text. -/
def asBytes (text : List Char) : List UInt8 := text.flatMap String.utf8EncodeChar

/-- The text from a byte on, none when the byte is within a character. -/
def sliceFrom : Nat → List Char → Option (List Char)
  | 0, text => some text
  | _ + 1, [] => none
  | i + 1, c :: text => if c.utf8Size ≤ i + 1 then sliceFrom (i + 1 - c.utf8Size) text else none

/-- The characters of a part from byte `i` on are added to `token`, escapes replaced. -/
def decodePart (part : List Char) (i : Nat) (token : List Char) : Except Fault (List Char) :=
  if i < (asBytes part).length then
    if (asBytes part)[i]? ≠ some 0x7e then
      match (sliceFrom i part).bind List.head? with
      | none => .error .panicked
      | some c => decodePart part (i + c.utf8Size) (token ++ [c])
    else if (asBytes part).length ≤ i + 1 ∨
        ((asBytes part)[i + 1]? ≠ some 0x30 ∧ (asBytes part)[i + 1]? ≠ some 0x31) then
      .error .escape
    else decodePart part (i + 2)
      (token ++ [if (asBytes part)[i + 1]? = some 0x30 then '~' else '/'])
  else .ok token
termination_by (asBytes part).length - i
decreasing_by
  · have := c.utf8Size_pos
    omega
  · omega

def decodeParts : List (List Char) → List String → Except Fault (List String)
  | [], result => .ok result
  | part :: parts, result =>
      if maxPointerDepth ≤ result.length then .error .tooDeep
      else
        match decodePart part 0 [] with
        | .error fault => .error fault
        | .ok token => decodeParts parts (result ++ [String.ofList token])

/-- `pointer_tokens` -/
def pointerTokens (pointer : String) : Except Fault (List String) :=
  if maxPointerBytes < pointer.utf8ByteSize ∨
      (pointer ≠ "" ∧ pointer.toList.head? ≠ some '/') then .error .invalid
  else if pointer = "" then .ok []
  else decodeParts (pointer.toList.tail.splitOn '/') []

/-! ## The encoding -/

/-- A character of a token, as the RFC writes it. -/
def tokenChar : Char → List Char
  | '~' => ['~', '0']
  | '/' => ['~', '1']
  | c => [c]

/-- One token after a slash. -/
def encodeToken (token : String) : List Char := '/' :: token.toList.flatMap tokenChar

/-- The pointer of a list of tokens. -/
def encode (tokens : List String) : String := String.ofList (tokens.flatMap encodeToken)

/-! ## Bytes -/

theorem asBytes_append (front rest : List Char) :
    asBytes (front ++ rest) = asBytes front ++ asBytes rest := List.flatMap_append

theorem asBytes_cons (c : Char) (text : List Char) :
    asBytes (c :: text) = String.utf8EncodeChar c ++ asBytes text := rfl

theorem asBytes_cons_length (c : Char) (text : List Char) :
    (asBytes (c :: text)).length = c.utf8Size + (asBytes text).length := by
  rw [asBytes_cons, List.length_append, String.length_utf8EncodeChar]

/-- A byte behind the front is a byte of the rest. -/
theorem asBytes_behind (front rest : List Char) (k : Nat) :
    (asBytes (front ++ rest))[(asBytes front).length + k]? = (asBytes rest)[k]? := by
  rw [asBytes_append, List.getElem?_append_right (by omega)]
  congr 1
  omega

/-- The first byte of a character is an ASCII byte when the character is. -/
theorem first_byte {c a : Char} (ha : a.toNat < 0x80) (rest : List Char) :
    (asBytes (c :: rest))[0]? = some (UInt8.ofNat a.toNat) ↔ c = a := by
  have hsame : c.toNat = a.toNat ↔ c = a := ⟨fun h => Char.toNat_inj.mp h, fun h => by rw [h]⟩
  rw [← hsame, asBytes_cons]
  unfold String.utf8EncodeChar
  have hbyte : ∀ n : Nat, n < 256 → (UInt8.ofNat n = UInt8.ofNat a.toNat ↔ n = a.toNat) := by
    intro n hn
    rw [← UInt8.toNat_inj, UInt8.toNat_ofNat', UInt8.toNat_ofNat']
    omega
  show _ ↔ c.val.toNat = _
  generalize c.val.toNat = v
  -- the first byte of a longer character has its high bit set
  dsimp only
  split_ifs with h1 h2 h3
  · simpa using hbyte v (by omega)
  · rw [List.cons_append, List.getElem?_cons_zero, Option.some_inj, hbyte _ (by omega)]
    omega
  · rw [List.cons_append, List.getElem?_cons_zero, Option.some_inj, hbyte _ (by omega)]
    omega
  · rw [List.cons_append, List.getElem?_cons_zero, Option.some_inj, hbyte _ (by omega)]
    omega

/-- The front can be cut off. -/
theorem sliceFrom_front (front rest : List Char) :
    sliceFrom (asBytes front).length (front ++ rest) = some rest := by
  induction front with
  | nil => simp [asBytes, sliceFrom]
  | cons c front ih =>
      rw [asBytes_cons_length]
      have hpos := c.utf8Size_pos
      obtain ⟨n, hn⟩ : ∃ n, c.utf8Size + (asBytes front).length = n + 1 :=
        ⟨c.utf8Size + (asBytes front).length - 1, by omega⟩
      rw [hn, List.cons_append, sliceFrom, if_pos (by omega),
        show n + 1 - c.utf8Size = (asBytes front).length by omega, ih]

/-! ## A part -/

/-- The result of the scan as the characters say it. -/
def scanned (token : List Char) : Option (List Char) → Except Fault (List Char)
  | none => .error .escape
  | some decoded => .ok (token ++ decoded)

theorem unescape_ordinary {c : Char} (h : c ≠ '~') (rest : List Char) :
    unescape (c :: rest) = (unescape rest).map (c :: ·) := by
  rw [unescape]
  · intro _ heq
    exact absurd heq h
  · intro _ heq
    exact absurd heq h
  · intro heq
    exact absurd heq h

theorem scanned_map (token : List Char) (c : Char) (decoded : Option (List Char)) :
    scanned token (decoded.map (c :: ·)) = scanned (token ++ [c]) decoded := by
  cases decoded <;> simp [scanned]

/-- From any character on, the scan replaces the escapes of the rest. -/
theorem decodePart_rest (front rest token : List Char) :
    decodePart (front ++ rest) (asBytes front).length token =
      scanned token (unescape rest) := by
  induction hlen : rest.length using Nat.strong_induction_on generalizing front rest token with
  | _ n ih =>
  subst hlen
  have hnext : ∀ k, (asBytes (front ++ rest))[(asBytes front).length + k]? = (asBytes rest)[k]? :=
    asBytes_behind front rest
  have hlength : (asBytes (front ++ rest)).length =
      (asBytes front).length + (asBytes rest).length := by
    rw [asBytes_append, List.length_append]
  -- the scan goes on behind some characters of the rest
  have hbehind : ∀ (read left : List Char), rest = read ++ left → read ≠ [] → ∀ token,
      decodePart (front ++ rest) ((asBytes front).length + (asBytes read).length) token =
        scanned token (unescape left) := by
    intro read left hrest hread token
    have hshort : left.length < rest.length := by
      have hpos := List.length_pos_of_ne_nil hread
      rw [hrest, List.length_append]
      omega
    rw [hrest, ← List.append_assoc, ← List.length_append, ← asBytes_append]
    exact ih left.length hshort (front ++ read) left token rfl
  rw [decodePart, hlength, show (asBytes (front ++ rest))[(asBytes front).length]? =
    (asBytes rest)[0]? from hnext 0, hnext 1, sliceFrom_front]
  cases rest with
  | nil =>
      rw [if_neg (by simp [asBytes])]
      simp [scanned, unescape]
  | cons c rest =>
      have hpos := c.utf8Size_pos
      have hsize := asBytes_cons_length c rest
      rw [if_pos (by omega)]
      by_cases hc : c = '~'
      · subst hc
        have hfirst : (asBytes ('~' :: rest))[0]? = some 0x7e :=
          (first_byte (a := '~') (by decide) rest).mpr rfl
        have hsecond : (asBytes ('~' :: rest))[1]? = (asBytes rest)[0]? :=
          asBytes_behind ['~'] rest 0
        rw [if_neg (by simpa using hfirst), hsecond]
        cases rest with
        | nil =>
            have htilde : (asBytes ['~']).length = 1 := rfl
            rw [if_pos (Or.inl (by omega))]
            rfl
        | cons d rest =>
            have hzero : (asBytes (d :: rest))[0]? = some 0x30 ↔ d = '0' :=
              first_byte (a := '0') (by decide) rest
            have hone : (asBytes (d :: rest))[0]? = some 0x31 ↔ d = '1' :=
              first_byte (a := '1') (by decide) rest
            have hlong : ¬ (asBytes front).length + (asBytes ('~' :: d :: rest)).length ≤
                (asBytes front).length + 1 := by
              have hdpos := d.utf8Size_pos
              have hdsize := asBytes_cons_length d rest
              have htilde : ('~').utf8Size = 1 := rfl
              omega
            simp only [ne_eq, hzero, hone, hlong, false_or]
            by_cases hd0 : d = '0'
            · subst hd0
              rw [if_neg (by simp), if_pos rfl]
              refine (hbehind ['~', '0'] rest rfl (by simp) _).trans ?_
              rw [unescape, scanned_map]
            · by_cases hd1 : d = '1'
              · subst hd1
                rw [if_neg (by simp), if_neg hd0]
                refine (hbehind ['~', '1'] rest rfl (by simp) _).trans ?_
                rw [unescape, scanned_map]
              · rw [if_pos ⟨hd0, hd1⟩, unescape]
                · rfl
                · intro _ heq
                  exact absurd (List.cons.inj heq).1 hd0
                · intro _ heq
                  exact absurd (List.cons.inj heq).1 hd1
      · have hfirst : (asBytes (c :: rest))[0]? ≠ some 0x7e := fun h =>
          hc ((first_byte (a := '~') (by decide) rest).mp h)
        rw [if_pos hfirst]
        show decodePart _ ((asBytes front).length + c.utf8Size) (token ++ [c]) = _
        have hone : (asBytes [c]).length = c.utf8Size := by
          rw [asBytes_cons_length]
          rfl
        rw [← hone, hbehind [c] rest rfl (by simp), unescape_ordinary hc, scanned_map]

/-- The scan of a part replaces its escapes. -/
theorem decodePart_eq (part : List Char) : decodePart part 0 [] = scanned [] (unescape part) :=
  decodePart_rest [] part []

theorem scanned_ok {part token : List Char} :
    decodePart part 0 [] = .ok token ↔ unescape part = some token := by
  rw [decodePart_eq]
  cases unescape part <;> simp [scanned]

/-- The scan cuts no character. -/
theorem decodePart_ne_panicked (part : List Char) : decodePart part 0 [] ≠ .error .panicked := by
  rw [decodePart_eq]
  cases unescape part <;> simp [scanned]

theorem tokenChar_ordinary {c : Char} (htilde : c ≠ '~') (hslash : c ≠ '/') :
    tokenChar c = [c] := by
  unfold tokenChar
  split
  · exact absurd rfl htilde
  · exact absurd rfl hslash
  · rfl

theorem slash_not_mem_tokenChar (c : Char) : '/' ∉ tokenChar c := by
  unfold tokenChar
  split
  · decide
  · decide
  · rename_i hslash
    intro hmem
    exact hslash (List.mem_singleton.mp hmem).symm

/-- Replacing the escapes of a part gives the token the part is written for. -/
theorem unescape_iff {part token : List Char} :
    unescape part = some token ∧ '/' ∉ part ↔ token.flatMap tokenChar = part := by
  constructor
  · intro h
    obtain ⟨hdecoded, hslash⟩ := h
    induction part using unescape.induct generalizing token with
    | case1 =>
        obtain rfl := Option.some.inj hdecoded
        rfl
    | case2 rest ih =>
        rw [unescape] at hdecoded
        obtain ⟨decoded, hrest, rfl⟩ := Option.map_eq_some_iff.mp hdecoded
        have hfree : '/' ∉ rest := fun hmem =>
          hslash (List.mem_cons_of_mem _ (List.mem_cons_of_mem _ hmem))
        rw [List.flatMap_cons, ih hrest hfree]
        rfl
    | case3 rest ih =>
        rw [unescape] at hdecoded
        obtain ⟨decoded, hrest, rfl⟩ := Option.map_eq_some_iff.mp hdecoded
        have hfree : '/' ∉ rest := fun hmem =>
          hslash (List.mem_cons_of_mem _ (List.mem_cons_of_mem _ hmem))
        rw [List.flatMap_cons, ih hrest hfree]
        rfl
    | case4 rest hzero hone =>
        rw [unescape] at hdecoded
        · cases hdecoded
        · exact hzero
        · exact hone
    | case5 c rest _ _ htilde ih =>
        have hc : c ≠ '~' := fun heq => htilde heq
        rw [unescape_ordinary hc] at hdecoded
        obtain ⟨decoded, hrest, rfl⟩ := Option.map_eq_some_iff.mp hdecoded
        have hfree : '/' ∉ rest := fun hmem => hslash (List.mem_cons_of_mem _ hmem)
        have hcs : c ≠ '/' := fun heq => hslash (heq ▸ List.mem_cons_self)
        rw [List.flatMap_cons, ih hrest hfree, tokenChar_ordinary hc hcs]
        rfl
  · intro h
    subst h
    constructor
    · induction token with
      | nil => rfl
      | cons c token ih =>
          rw [List.flatMap_cons]
          by_cases htilde : c = '~'
          · subst htilde
            show unescape ('~' :: '0' :: token.flatMap tokenChar) = _
            rw [unescape, ih]
            rfl
          · by_cases hslash : c = '/'
            · subst hslash
              show unescape ('~' :: '1' :: token.flatMap tokenChar) = _
              rw [unescape, ih]
              rfl
            · rw [tokenChar_ordinary htilde hslash]
              show unescape (c :: token.flatMap tokenChar) = _
              rw [unescape_ordinary htilde, ih]
              rfl
    · intro hmem
      obtain ⟨c, _, hc⟩ := List.mem_flatMap.mp hmem
      exact slash_not_mem_tokenChar c hc

/-! ## All parts -/

/-- The loop over the parts adds the token of each, up to the depth. -/
theorem decodeParts_ok (parts : List (List Char)) (result tokens : List String)
    (hresult : result.length ≤ maxPointerDepth) :
    decodeParts parts result = .ok tokens ↔
      ∃ added, tokens = result ++ added ∧ tokens.length ≤ maxPointerDepth ∧
        parts.map unescape = added.map fun token => some token.toList := by
  induction parts generalizing result with
  | nil =>
      constructor
      · intro h
        obtain rfl := Except.ok.inj h
        exact ⟨[], (List.append_nil _).symm, hresult, rfl⟩
      · intro h
        obtain ⟨added, rfl, -, hadded⟩ := h
        obtain rfl : added = [] := by simpa using hadded.symm
        rw [List.append_nil]
        rfl
  | cons part parts ih =>
      rw [decodeParts]
      by_cases hdeep : maxPointerDepth ≤ result.length
      · rw [if_pos hdeep]
        constructor
        · intro h
          cases h
        · intro h
          obtain ⟨added, rfl, hlength, hadded⟩ := h
          cases added with
          | nil => cases hadded
          | cons token added =>
              rw [List.length_append, List.length_cons] at hlength
              omega
      · rw [if_neg hdeep]
        have hlonger : ∀ token : String, (result ++ [token]).length ≤ maxPointerDepth := by
          intro token
          rw [List.length_append, List.length_singleton]
          omega
        cases hpart : decodePart part 0 [] with
        | error fault =>
            have hnone : unescape part = none := by
              rw [decodePart_eq] at hpart
              cases h : unescape part with
              | none => rfl
              | some token => rw [h] at hpart; cases hpart
            constructor
            · intro h
              cases h
            · intro h
              obtain ⟨added, -, -, hadded⟩ := h
              cases added with
              | nil => cases hadded
              | cons token added =>
                  rw [List.map_cons, List.map_cons, hnone] at hadded
                  cases (List.cons.inj hadded).1
        | ok token =>
            have hsome := scanned_ok.mp hpart
            show decodeParts parts _ = _ ↔ _
            rw [ih _ (hlonger _)]
            constructor
            · intro h
              obtain ⟨added, rfl, hlength, hadded⟩ := h
              refine ⟨String.ofList token :: added, by simp, hlength, ?_⟩
              rw [List.map_cons, List.map_cons, hsome, hadded, String.toList_ofList]
            · intro h
              obtain ⟨added, rfl, hlength, hadded⟩ := h
              cases added with
              | nil => cases hadded
              | cons first added =>
                  rw [List.map_cons, List.map_cons, hsome] at hadded
                  obtain ⟨hfirst, hrest⟩ := List.cons.inj hadded
                  have htoken : String.ofList token = first := by
                    rw [Option.some.inj hfirst, String.ofList_toList]
                  exact ⟨added, by rw [htoken]; simp, hlength, hrest⟩

theorem decodeParts_ne_panicked (parts : List (List Char)) (result : List String) :
    decodeParts parts result ≠ .error .panicked := by
  induction parts generalizing result with
  | nil => simp [decodeParts]
  | cons part parts ih =>
      rw [decodeParts]
      split
      · simp
      · cases hpart : decodePart part 0 [] with
        | error fault =>
            intro h
            exact decodePart_ne_panicked part (hpart.trans (congrArg Except.error (Except.error.inj h)))
        | ok token => exact ih _

/-- A list of tokens that is not empty is written as its tokens, joined by slashes, after a
slash. -/
theorem encode_cons (token : String) (tokens : List String) :
    (encode (token :: tokens)).toList =
      '/' :: ['/'].intercalate ((token :: tokens).map fun t => t.toList.flatMap tokenChar) := by
  rw [encode, String.toList_ofList]
  induction tokens generalizing token with
  | nil => simp [encodeToken]
  | cons second tokens ih =>
      rw [List.flatMap_cons, ih]
      simp only [List.map_cons, List.intercalate_cons_cons]
      simp [encodeToken]

/-- The parts of a path are the tokens, each as it is written, when the path is the encoding. -/
theorem parts_iff (path : List Char) (tokens : List String) :
    (path.splitOn '/').map unescape = tokens.map (fun token => some token.toList) ↔
      (encode tokens).toList = '/' :: path := by
  constructor
  · intro h
    have hparts : path.splitOn '/' = tokens.map fun t => t.toList.flatMap tokenChar := by
      have hfree : ∀ part ∈ path.splitOn '/', '/' ∉ part := fun part hpart =>
        Text.not_mem_piece hpart
      revert hfree
      generalize path.splitOn '/' = parts at h
      intro hfree
      induction parts generalizing tokens with
      | nil =>
          obtain rfl : tokens = [] := by simpa using h.symm
          rfl
      | cons part parts ih =>
          cases tokens with
          | nil => cases h
          | cons token tokens =>
              obtain ⟨hpart, hrest⟩ := List.cons.inj h
              have hwritten := unescape_iff.mp ⟨hpart, hfree part List.mem_cons_self⟩
              rw [List.map_cons, hwritten, ih tokens hrest fun part hpart =>
                hfree part (List.mem_cons_of_mem _ hpart)]
    cases tokens with
    | nil => exact absurd hparts (List.splitOnP_ne_nil _ path)
    | cons token tokens => rw [encode_cons, ← hparts, List.intercalate_splitOn]
  · intro h
    cases tokens with
    | nil => simp [encode] at h
    | cons token tokens =>
        rw [encode_cons] at h
        have hfree : ∀ part ∈ (token :: tokens).map (fun t : String => t.toList.flatMap tokenChar),
            '/' ∉ part := by
          intro part hpart
          obtain ⟨t, _, rfl⟩ := List.mem_map.mp hpart
          exact (unescape_iff.mpr rfl).2
        rw [← (List.cons.inj h).2, List.splitOn_intercalate '/' hfree (by simp), List.map_map]
        refine List.map_congr_left fun t _ => ?_
        exact (unescape_iff.mpr rfl).1

/-- A pointer gives a list of tokens exactly when it is within the bounds and is the encoding of
the tokens, and reading it never panics. -/
theorem pointer_round_trip :
    (∀ pointer tokens, pointerTokens pointer = .ok tokens ↔
      pointer.utf8ByteSize ≤ maxPointerBytes ∧ tokens.length ≤ maxPointerDepth ∧
        encode tokens = pointer) ∧
      ∀ pointer, pointerTokens pointer ≠ .error .panicked := by
  constructor
  · intro pointer tokens
    rw [← String.toList_inj]
    unfold pointerTokens
    by_cases hlong : maxPointerBytes < pointer.utf8ByteSize
    · rw [if_pos (Or.inl hlong)]
      constructor
      · intro h
        cases h
      · intro h
        exact absurd h.1 (by omega)
    · by_cases hempty : pointer = ""
      · subst hempty
        rw [if_neg (by simp), if_pos rfl]
        constructor
        · intro h
          obtain rfl := Except.ok.inj h
          exact ⟨by omega, by simp, rfl⟩
        · intro h
          obtain ⟨-, -, hencode⟩ := h
          cases tokens with
          | nil => rfl
          | cons token tokens =>
              rw [encode_cons] at hencode
              cases hencode
      · have hne : pointer.toList ≠ [] := fun h => hempty (String.toList_inj.mp h)
        cases hchars : pointer.toList with
        | nil => exact absurd hchars hne
        | cons c path =>
            by_cases hslash : c = '/'
            · subst hslash
              rw [if_neg (by simp [hlong]), if_neg hempty, List.tail_cons,
                decodeParts_ok _ _ _ (by simp)]
              constructor
              · intro h
                obtain ⟨added, rfl, hlength, hadded⟩ := h
                exact ⟨by omega, hlength, (parts_iff path _).mp hadded⟩
              · intro h
                exact ⟨tokens, rfl, h.2.1, (parts_iff path tokens).mpr h.2.2⟩
            · rw [if_pos (Or.inr ⟨hempty, by simpa using hslash⟩)]
              constructor
              · intro h
                cases h
              · intro h
                obtain ⟨-, -, hencode⟩ := h
                cases tokens with
                | nil => cases hencode
                | cons token tokens =>
                    rw [encode_cons] at hencode
                    exact absurd (List.cons.inj hencode).1.symm hslash
  · intro pointer
    unfold pointerTokens
    split
    · simp
    · split
      · simp
      · exact decodeParts_ne_panicked _ _

theorem mapM_unescape (parts : List (List Char)) (tokens : List String) :
    (parts.mapM fun part => (unescape part).map String.ofList) = some tokens ↔
      parts.map unescape = tokens.map fun token => some token.toList := by
  induction parts generalizing tokens with
  | nil => cases tokens <;> simp
  | cons part parts ih =>
      rw [List.mapM_cons]
      cases hpart : unescape part with
      | none => cases tokens <;> simp [hpart]
      | some decoded =>
          have hfirst : ∀ token, String.ofList decoded = token ↔ decoded = token.toList := by
            intro token
            rw [← String.toList_inj, String.toList_ofList]
          cases hrest : parts.mapM fun part => (unescape part).map String.ofList with
          | none =>
              cases tokens with
              | nil => simp
              | cons token tokens =>
                  have hne : ¬ parts.map unescape = tokens.map fun token => some token.toList :=
                    fun h => by cases hrest.symm.trans ((ih tokens).mpr h)
                  simp [hne]
          | some others =>
              cases tokens with
              | nil => simp
              | cons token tokens =>
                  have hothers : parts.map unescape = tokens.map (fun token => some token.toList) ↔
                      others = tokens := by
                    rw [← ih, hrest, Option.some_inj]
                  simp [hpart, hothers, hfirst]

/-- Both runtimes read a pointer alike: the scan gives the tokens that cutting the whole pointer
at its slashes and replacing the escapes of each part gives. -/
theorem pointerTokens_toOption (pointer : String) :
    (pointerTokens pointer).toOption = CodexMonitor.pointerTokens pointer := by
  refine Option.ext fun tokens => ?_
  have hok : (pointerTokens pointer).toOption = some tokens ↔
      pointerTokens pointer = .ok tokens := by
    cases pointerTokens pointer <;> simp [Except.toOption]
  rw [hok]
  unfold pointerTokens CodexMonitor.pointerTokens
  by_cases hlong : maxPointerBytes < pointer.utf8ByteSize
  · simp [hlong]
  · rw [if_neg hlong]
    by_cases hempty : pointer = ""
    · subst hempty
      rw [if_neg (by simp), if_pos rfl]
      simp
    · cases hchars : pointer.toList with
      | nil => exact absurd (String.toList_inj.mp hchars) hempty
      | cons c path =>
          by_cases hslash : c = '/'
          · subst hslash
            rw [if_neg (by simp [hlong]), if_neg hempty, List.tail_cons,
              decodeParts_ok _ _ _ (by simp)]
            show _ ↔ (if _ then _ else _) = _
            have hlength : ∀ added : List String, (path.splitOn '/').map unescape =
                added.map (fun token => some token.toList) →
                  (path.splitOn '/').length = added.length := by
              intro added hadded
              simpa using congrArg List.length hadded
            by_cases hdeep : maxPointerDepth < (path.splitOn '/').length
            · rw [if_pos hdeep]
              constructor
              · intro h
                obtain ⟨added, heq, hbound, hadded⟩ := h
                rw [List.nil_append] at heq
                subst heq
                have := hlength tokens hadded
                omega
              · intro h
                cases h
            · rw [if_neg hdeep, mapM_unescape]
              constructor
              · intro h
                obtain ⟨added, heq, -, hadded⟩ := h
                rw [heq]
                exact hadded
              · intro hadded
                have := hlength tokens hadded
                exact ⟨tokens, rfl, by omega, hadded⟩
          · rw [if_pos (Or.inr ⟨hempty, by simpa using hslash⟩)]
            simp [hslash]

end CodexMonitor.Scanner
