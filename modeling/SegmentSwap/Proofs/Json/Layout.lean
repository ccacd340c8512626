import SegmentSwap.Proofs.Json.Numeral
import SegmentSwap.Proofs.Json.Text

/-!
# Reading the values that are laid out

A value without reals whose texts, numbers and names can be written and read back is read back from
its laid out form, blanks at the end apart. A reader needs as much fuel as the value has characters:
each item and each field costs one unit, and each of them is longer than that.
-/

namespace SegmentSwap.Json

/-- A value that can be read back, nested at most `depth` deep. -/
inductive Legible : (depth : Nat) → Value → Prop where
  | null {depth : Nat} : Legible depth .null
  | bool {depth : Nat} (b : Bool) : Legible depth (.bool b)
  | int {depth : Nat} {n : Int} (h : isShowable n = true) : Legible depth (.int n)
  | str {depth : Nat} {t : Text} (h : t.rejoined = t) : Legible depth (.str t)
  | arr {depth : Nat} {items : List Value} (h : ∀ v ∈ items, Legible depth v) :
    Legible (depth + 1) (.arr items)
  | obj {depth : Nat} {fields : List (Text × Value)} (distinct : (fields.map (·.1)).Nodup)
    (names : ∀ f ∈ fields, f.1.isWhole = true) (h : ∀ f ∈ fields, Legible depth f.2) :
    Legible (depth + 1) (.obj fields)

theorem setField_of_not_mem {name : Text} {v : Value} {fields : List (Text × Value)}
    (h : name ∉ fields.map (·.1)) : setField name v fields = fields ++ [(name, v)] := by
  induction fields with
  | nil => rfl
  | cons f fields ih =>
    rw [List.map_cons, List.mem_cons, not_or] at h
    rw [setField, if_neg fun heq => h.1 heq.symm, ih h.2]
    rfl

/-- Fields with distinct names are collected as they are given. -/
theorem collectFields_of_nodup {fields : List (Text × Value)} (h : (fields.map (·.1)).Nodup) :
    collectFields fields = fields := by
  -- the fold goes on from whatever it has collected, so the induction is over all of that
  have hfold : ∀ before : List (Text × Value), ((before ++ fields).map (·.1)).Nodup →
      fields.foldl (fun acc f => setField f.1 f.2 acc) before = before ++ fields := by
    clear h
    induction fields with
    | nil =>
      intro before _
      rw [List.append_nil]
      rfl
    | cons f fields ih =>
      intro before h
      have hnew : f.1 ∉ before.map (·.1) := by
        rw [List.map_append, List.nodup_append] at h
        intro hmem
        exact h.2.2 _ hmem _ (by simp) rfl
      have hsplit : before ++ f :: fields = before ++ [f] ++ fields := by
        rw [List.append_assoc]
        rfl
      rw [hsplit] at h ⊢
      rw [List.foldl_cons, setField_of_not_mem hnew, ih _ h]
  exact hfold [] h

namespace Reader

open Writer

theorem skip_newline (depth : Nat) (cs : List Char) : skip (newline depth ++ cs) = skip cs := by
  have hblank : ∀ c ∈ newline depth, isBlank c = true := by
    intro c hc
    rcases List.mem_cons.mp hc with rfl | hc
    · decide
    · rw [List.eq_of_mem_replicate hc]
      decide
  unfold skip
  rw [List.dropWhile_append_of_pos hblank]

theorem skip_of_head {c : Char} (cs : List Char) (h : isBlank c = false) :
    skip (c :: cs) = c :: cs := by
  unfold skip
  rw [List.dropWhile_cons, h]
  rfl

/-- How a value may start, so that nobody takes it for a blank, for the end of a list or for a byte
order mark. -/
def Starts (cs : List Char) : Prop :=
  ∃ c rest, cs = c :: rest ∧ isBlank c = false ∧ c ≠ ']' ∧ c ≠ '\uFEFF'

theorem Starts.append {cs : List Char} (h : Starts cs) (rest : List Char) :
    Starts (cs ++ rest) := by
  obtain ⟨c, tail, rfl, hblank, hend⟩ := h
  exact ⟨c, tail ++ rest, rfl, hblank, hend⟩

theorem Starts.skip_eq {cs : List Char} (h : Starts cs) : skip cs = cs := by
  obtain ⟨c, tail, rfl, hblank, -⟩ := h
  exact skip_of_head tail hblank

theorem starts_int (n : Int) : ∃ c rest, (toString n).toList = c :: rest ∧
    (c = '-' ∨ Text.isAsciiDigit c = true) := by
  have hdigits := isAsciiDigit_toDigits n.natAbs
  obtain ⟨d, ds, hd⟩ := List.exists_cons_of_ne_nil (Nat.toDigits_ne_nil (b := 10) (n := n.natAbs))
  rw [toList_toString_int, hd]
  rw [hd] at hdigits
  split
  · exact ⟨d, ds, rfl, .inr (hdigits d List.mem_cons_self)⟩
  · exact ⟨'-', d :: ds, rfl, .inl rfl⟩

theorem starts_block {depth : Nat} {v : Value} (h : Legible depth v) (indent : Nat) :
    Starts (block indent v) := by
  have hletter : ∀ (c : Char) (cs : List Char), isBlank c = false → c ≠ ']' ∧ c ≠ '\uFEFF' →
      Starts (c :: cs) := fun c cs hblank hne => ⟨c, cs, rfl, hblank, hne⟩
  rw [block.eq_def]
  cases h with
  | null => exact hletter 'n' _ rfl (by decide)
  | bool b =>
    cases b with
    | false => exact hletter 'f' _ rfl (by decide)
    | true => exact hletter 't' _ rfl (by decide)
  | @int _ n _ =>
    obtain ⟨c, cs, htext, hc⟩ := starts_int n
    show Starts (toString n).toList
    rw [htext]
    rcases hc with rfl | hc
    · exact hletter '-' _ rfl (by decide)
    · refine hletter c _ ?_ ⟨(digit_ne hc rfl).symm, (digit_ne hc rfl).symm⟩
      unfold isBlank
      simp [(digit_ne (d := ' ') hc rfl).symm, (digit_ne (d := '\t') hc rfl).symm,
        (digit_ne (d := '\n') hc rfl).symm, (digit_ne (d := '\r') hc rfl).symm]
  | str _ => exact hletter '"' _ rfl (by decide)
  | @arr _ items _ =>
    cases items with
    | nil => exact hletter '[' _ rfl (by decide)
    | cons v rest => exact hletter '[' _ rfl (by decide)
  | @obj _ fields _ _ _ =>
    cases fields with
    | nil => exact hletter '\x7b' _ rfl (by decide)
    | cons f rest => exact hletter '\x7b' _ rfl (by decide)

/-! ## Reading what has been written -/

section Values

variable {fuel depth : Nat} {rest : List Char}

theorem value_scalar {c : Char} {cs : List Char} (hquote : c ≠ '"') (hlist : c ≠ '[')
    (hobject : c ≠ '\x7b') : value (fuel + 1) depth (c :: cs) = scalar (c :: cs) := by
  rw [value]
  · intro tail heq
    exact hquote (List.cons.inj heq).1
  · intro tail heq
    exact hlist (List.cons.inj heq).1
  · intro tail heq
    exact hobject (List.cons.inj heq).1

theorem value_text {t : Text} (h : t.rejoined = t) :
    value (fuel + 1) depth (Writer.text t ++ rest) = .ok (.str t, rest) := by
  have hread : text (t.points.flatMap escape ++ ['"'] ++ rest) = .ok (t, rest) := by
    rw [List.append_assoc]
    refine (text_escape t rest).trans ?_
    rw [h]
  show value (fuel + 1) depth ('"' :: (t.points.flatMap escape ++ ['"'] ++ rest)) = _
  rw [value, hread]
  rfl

theorem endsNumber_comma : EndsNumber (',' :: rest) := by
  rintro c ⟨⟩
  decide

theorem endsNumber_newline (depth : Nat) : EndsNumber (newline depth ++ rest) := by
  rintro c ⟨⟩
  decide

theorem endsNumber_blockItems (indent : Nat) (items : List Value) (rest : List Char) :
    EndsNumber (blockItems indent items ++ rest) := by
  cases items with
  | nil =>
    rw [blockItems, List.append_assoc]
    exact endsNumber_newline indent
  | cons v items => exact endsNumber_comma

theorem endsNumber_blockFields (indent : Nat) (fields : List (Text × Value)) (rest : List Char) :
    EndsNumber (blockFields indent fields ++ rest) := by
  cases fields with
  | nil =>
    rw [blockFields, List.append_assoc]
    exact endsNumber_newline indent
  | cons v fields => exact endsNumber_comma

/-- A value is read off the front of what it is written to. -/
def Reads (depth : Nat) (v : Value) : Prop :=
  ∀ (indent fuel : Nat) (rest : List Char), EndsNumber rest →
    (block indent v).length ≤ fuel → value fuel depth (block indent v ++ rest) = .ok (v, rest)

section Steps

variable {cs tail last : List Char} {v : Value} {vs : List Value} {name : Text}
  {fs : List (Text × Value)}

theorem items_last (hv : value fuel depth cs = .ok (v, rest)) (hrest : skip rest = ']' :: tail) :
    items (fuel + 1) depth cs = .ok ([v], tail) := by
  rw [items]
  simp only [bind, Except.bind, hv, hrest]

theorem items_next (hv : value fuel depth cs = .ok (v, rest)) (hrest : skip rest = ',' :: tail)
    (hvs : items fuel depth (skip tail) = .ok (vs, last)) :
    items (fuel + 1) depth cs = .ok (v :: vs, last) := by
  rw [items]
  simp only [bind, Except.bind, hv, hrest, hvs, Except.map]

/-- What follows on the name of a field: a colon, a blank and the value. -/
def afterName (cs : List Char) : List Char := ':' :: ' ' :: cs

theorem fields_name (hname : name.isWhole = true) (hcs : Starts cs) :
    text (name.points.flatMap escape ++ ['"'] ++ afterName cs) = .ok (name, afterName cs) ∧
      skip (afterName cs) = ':' :: ' ' :: cs ∧ skip (' ' :: cs) = cs := by
  refine ⟨?_, skip_of_head _ rfl, hcs.skip_eq⟩
  rw [List.append_assoc]
  refine (text_escape name (afterName cs)).trans ?_
  rw [Text.rejoined_of_isWhole hname]

theorem fields_last (hname : name.isWhole = true) (hcs : Starts cs)
    (hv : value fuel depth cs = .ok (v, rest)) (hrest : skip rest = '\x7d' :: tail) :
    fields (fuel + 1) depth (Writer.text name ++ afterName cs) = .ok ([(name, v)], tail) := by
  obtain ⟨hread, hcolon, hblank⟩ := fields_name hname hcs
  show fields (fuel + 1) depth ('"' :: (name.points.flatMap escape ++ ['"'] ++ afterName cs)) = _
  rw [fields]
  simp only [bind, Except.bind, hread, hcolon, hblank, hv, hrest]

theorem fields_next (hname : name.isWhole = true) (hcs : Starts cs)
    (hv : value fuel depth cs = .ok (v, rest)) (hrest : skip rest = ',' :: tail)
    (hfs : fields fuel depth (skip tail) = .ok (fs, last)) :
    fields (fuel + 1) depth (Writer.text name ++ afterName cs) = .ok ((name, v) :: fs, last) := by
  obtain ⟨hread, hcolon, hblank⟩ := fields_name hname hcs
  show fields (fuel + 1) depth ('"' :: (name.points.flatMap escape ++ ['"'] ++ afterName cs)) = _
  rw [fields]
  simp only [bind, Except.bind, hread, hcolon, hblank, hv, hrest, hfs, Except.map]

end Steps

/-- The items of a list are read up to its end if each of them is. -/
theorem items_block {vs : List Value} {v : Value} (rest : List Char)
    (hlegible : ∀ w ∈ v :: vs, Legible depth w) (hreads : ∀ w ∈ v :: vs, Reads depth w)
    (indent : Nat) (hfuel : (block (indent + 1) v).length + (blockItems indent vs).length < fuel) :
    items fuel depth (block (indent + 1) v ++ (blockItems indent vs ++ rest)) =
      .ok (v :: vs, rest) := by
  -- what is still to be read shrinks faster than the fuel, which each item takes one unit of
  induction vs generalizing v fuel with
  | nil =>
    cases fuel with
    | zero => omega
    | succ fuel =>
      have hfirst := hreads v List.mem_cons_self (indent + 1) fuel _
        (endsNumber_blockItems indent [] rest) (by omega)
      have hskip : skip (blockItems indent [] ++ rest) = ']' :: rest := by
        rw [blockItems, List.append_assoc, skip_newline]
        exact skip_of_head rest rfl
      exact items_last hfirst hskip
  | cons w vs ih =>
    cases fuel with
    | zero => omega
    | succ fuel =>
      have hlength : (block (indent + 1) w).length + (blockItems indent vs).length + 2 ≤
          (blockItems indent (w :: vs)).length := by
        rw [blockItems]
        simp only [newline, List.cons_append, List.length_cons, List.length_append]
        omega
      have hfirst := hreads v List.mem_cons_self (indent + 1) fuel _
        (endsNumber_blockItems indent (w :: vs) rest) (by omega)
      have hskip : skip (blockItems indent (w :: vs) ++ rest) =
          ',' :: (newline (indent + 1) ++
            (block (indent + 1) w ++ (blockItems indent vs ++ rest))) := by
        rw [blockItems]
        simp only [List.cons_append, List.append_assoc]
        exact skip_of_head _ rfl
      have hstarts : Starts (block (indent + 1) w ++ (blockItems indent vs ++ rest)) :=
        (starts_block (hlegible w (by simp)) _).append _
      have hothers : items fuel depth (block (indent + 1) w ++ (blockItems indent vs ++ rest)) =
          .ok (w :: vs, rest) :=
        ih (fun u hu => hlegible u (List.mem_cons_of_mem v hu))
          (fun u hu => hreads u (List.mem_cons_of_mem v hu)) (by omega)
      refine items_next hfirst hskip ?_
      rw [skip_newline, hstarts.skip_eq, hothers]

/-- The fields of an object are read up to its end if each of them is. -/
theorem fields_block {fs : List (Text × Value)} {f : Text × Value} (rest : List Char)
    (hnames : ∀ g ∈ f :: fs, g.1.isWhole = true) (hlegible : ∀ g ∈ f :: fs, Legible depth g.2)
    (hreads : ∀ g ∈ f :: fs, Reads depth g.2) (indent : Nat)
    (hfuel : (block (indent + 1) f.2).length + (blockFields indent fs).length < fuel) :
    fields fuel depth (Writer.text f.1 ++
        afterName (block (indent + 1) f.2 ++ (blockFields indent fs ++ rest))) =
      .ok (f :: fs, rest) := by
  induction fs generalizing f fuel with
  | nil =>
    cases fuel with
    | zero => omega
    | succ fuel =>
      have hfirst := hreads f List.mem_cons_self (indent + 1) fuel _
        (endsNumber_blockFields indent [] rest) (by omega)
      have hskip : skip (blockFields indent [] ++ rest) = '\x7d' :: rest := by
        rw [blockFields, List.append_assoc, skip_newline]
        exact skip_of_head rest rfl
      have hstarts : Starts (block (indent + 1) f.2 ++ (blockFields indent [] ++ rest)) :=
        (starts_block (hlegible f (by simp)) _).append _
      exact fields_last (hnames f (by simp)) hstarts hfirst hskip
  | cons g fs ih =>
    cases fuel with
    | zero => omega
    | succ fuel =>
      have hlength : (block (indent + 1) g.2).length + (blockFields indent fs).length + 2 ≤
          (blockFields indent (g :: fs)).length := by
        rw [blockFields]
        simp only [newline, List.cons_append, List.length_cons, List.length_append]
        omega
      have hfirst := hreads f List.mem_cons_self (indent + 1) fuel _
        (endsNumber_blockFields indent (g :: fs) rest) (by omega)
      have hskip : skip (blockFields indent (g :: fs) ++ rest) =
          ',' :: (newline (indent + 1) ++ (Writer.text g.1 ++
            afterName (block (indent + 1) g.2 ++ (blockFields indent fs ++ rest)))) := by
        rw [blockFields]
        simp only [List.cons_append, List.append_assoc]
        exact skip_of_head _ rfl
      have hstarts : Starts (block (indent + 1) f.2 ++ (blockFields indent (g :: fs) ++ rest)) :=
        (starts_block (hlegible f (by simp)) _).append _
      have hquote : Starts (Writer.text g.1 ++
          afterName (block (indent + 1) g.2 ++ (blockFields indent fs ++ rest))) :=
        ⟨'"', _, rfl, rfl, by decide, by decide⟩
      have hothers : fields fuel depth (Writer.text g.1 ++
          afterName (block (indent + 1) g.2 ++ (blockFields indent fs ++ rest))) =
            .ok (g :: fs, rest) :=
        ih (fun u hu => hnames u (List.mem_cons_of_mem f hu))
          (fun u hu => hlegible u (List.mem_cons_of_mem f hu))
          (fun u hu => hreads u (List.mem_cons_of_mem f hu)) (by omega)
      refine fields_next (hnames f (by simp)) hstarts hfirst hskip ?_
      rw [skip_newline, hquote.skip_eq, hothers]

theorem value_arr {cs tail last : List Char} {vs : List Value} (hcs : skip tail = cs)
    (hstarts : Starts cs) (hvs : items fuel depth cs = .ok (vs, last)) :
    value (fuel + 1) (depth + 1) ('[' :: tail) = .ok (.arr vs, last) := by
  obtain ⟨c, rest, rfl, -, hend, -⟩ := hstarts
  rw [value]
  simp only [hcs]
  split
  · rename_i heq
    exact absurd (List.cons.inj heq).1 hend
  · rw [hvs]
    rfl

theorem value_obj {cs tail last : List Char} {name : Text} {fs : List (Text × Value)}
    (hcs : skip tail = Writer.text name ++ cs)
    (hfs : fields fuel depth (Writer.text name ++ cs) = .ok (fs, last)) :
    value (fuel + 1) (depth + 1) ('\x7b' :: tail) = .ok (.obj (collectFields fs), last) := by
  rw [value]
  simp only [hcs]
  split
  · rename_i heq
    exact absurd (List.cons.inj heq).1 (by decide)
  · rw [hfs]
    rfl

theorem reads_of_succ {v : Value} (hv : Legible depth v)
    (h : ∀ indent fuel rest, EndsNumber rest → (block indent v).length ≤ fuel + 1 →
      value (fuel + 1) depth (block indent v ++ rest) = .ok (v, rest)) : Reads depth v := by
  intro indent fuel rest hrest hfuel
  cases fuel with
  | zero =>
    obtain ⟨c, cs, hblock, -⟩ := starts_block hv indent
    rw [hblock] at hfuel
    exact absurd hfuel (Nat.not_succ_le_zero _)
  | succ fuel => exact h indent fuel rest hrest hfuel

/-- A legible value is read off the front of what it is written to. -/
theorem reads_of_legible {v : Value} (h : Legible depth v) : Reads depth v := by
  induction h with
  | null =>
    refine reads_of_succ .null fun indent fuel rest _ _ => ?_
    exact value_scalar (by decide) (by decide) (by decide)
  | bool b =>
    refine reads_of_succ (.bool b) fun indent fuel rest _ _ => ?_
    cases b <;> exact value_scalar (by decide) (by decide) (by decide)
  | @int depth n hn =>
    refine reads_of_succ (.int hn) fun indent fuel rest hrest _ => ?_
    have hread := scalar_int hn hrest
    obtain ⟨c, cs, htext, hc⟩ := starts_int n
    have hne : ∀ d : Char, d ≠ '-' → Text.isAsciiDigit d = false → c ≠ d := by
      intro d hsign hdigit
      rcases hc with rfl | hc
      · exact hsign.symm
      · exact (digit_ne hc hdigit).symm
    show value (fuel + 1) depth ((toString n).toList ++ rest) = _
    rw [← hread, htext]
    exact value_scalar (hne _ (by decide) rfl) (hne _ (by decide) rfl) (hne _ (by decide) rfl)
  | str ht =>
    refine reads_of_succ (.str ht) fun indent fuel rest _ _ => ?_
    exact value_text ht
  | @arr depth vs hlegible ih =>
    refine reads_of_succ (.arr hlegible) fun indent fuel rest _ hfuel => ?_
    cases vs with
    | nil => rfl
    | cons v vs =>
      have hlength : (block (indent + 1) v).length + (blockItems indent vs).length < fuel := by
        rw [block] at hfuel
        simp only [newline, List.cons_append, List.length_cons, List.length_append] at hfuel
        omega
      have hstarts : Starts (block (indent + 1) v ++ (blockItems indent vs ++ rest)) :=
        (starts_block (hlegible v List.mem_cons_self) _).append _
      have hitems := items_block rest hlegible ih indent hlength
      rw [block]
      simp only [List.cons_append, List.append_assoc]
      exact value_arr (by rw [skip_newline, hstarts.skip_eq]) hstarts hitems
  | @obj depth fs distinct names hlegible ih =>
    refine reads_of_succ (.obj distinct names hlegible) fun indent fuel rest _ hfuel => ?_
    cases fs with
    | nil => rfl
    | cons f fs =>
      have hlength : (block (indent + 1) f.2).length + (blockFields indent fs).length < fuel := by
        rw [block] at hfuel
        simp only [newline, List.cons_append, List.length_cons, List.length_append] at hfuel
        omega
      have hquote : Starts (Writer.text f.1 ++
          afterName (block (indent + 1) f.2 ++ (blockFields indent fs ++ rest))) :=
        ⟨'"', _, rfl, rfl, by decide, by decide⟩
      have hfields := fields_block rest names hlegible ih indent hlength
      have hskip : skip (newline (indent + 1) ++ (Writer.text f.1 ++
          afterName (block (indent + 1) f.2 ++ (blockFields indent fs ++ rest)))) =
            Writer.text f.1 ++
              afterName (block (indent + 1) f.2 ++ (blockFields indent fs ++ rest)) := by
        rw [skip_newline, hquote.skip_eq]
      have hread := value_obj hskip hfields
      rw [block]
      simp only [List.cons_append, List.append_assoc]
      rw [collectFields_of_nodup distinct] at hread
      exact hread

end Values

theorem isBlank_ne {c d : Char} (hc : isBlank c = true) (hd : isBlank d = false) : c ≠ d := by
  rintro rfl
  rw [hc] at hd
  exact Bool.noConfusion hd

/-- What is blank does not belong to a number. -/
theorem endsNumber_blank {cs : List Char} (h : ∀ c ∈ cs, isBlank c = true) : EndsNumber cs := by
  intro c hc
  have hblank := h c (List.mem_of_mem_head? hc)
  refine ⟨?_, isBlank_ne hblank rfl, isBlank_ne hblank rfl, isBlank_ne hblank rfl⟩
  unfold isBlank at hblank
  simp only [Bool.or_eq_true, beq_iff_eq] at hblank
  rcases hblank with ((rfl | rfl) | rfl) | rfl <;> rfl

/-- A legible value is read back, whatever blanks follow. -/
theorem document_block {v : Value} (h : Legible maxDepth v) {blanks : List Char}
    (hblanks : ∀ c ∈ blanks, isBlank c = true) : document (block 0 v ++ blanks) = .ok v := by
  have hstarts : Starts (block 0 v ++ blanks) := (starts_block h 0).append blanks
  have hend : skip blanks = [] := by
    have hall : (blanks ++ []).dropWhile isBlank = [].dropWhile isBlank :=
      List.dropWhile_append_of_pos hblanks
    rw [List.append_nil] at hall
    exact hall
  have hvalue := reads_of_legible h 0 ((block 0 v ++ blanks).length + 1) blanks
    (endsNumber_blank hblanks) (by rw [List.length_append]; omega)
  have hmark : ∀ tail, block 0 v ++ blanks ≠ '\uFEFF' :: tail := by
    obtain ⟨c, cs, hc, -, -, hne⟩ := hstarts
    intro tail heq
    rw [hc] at heq
    exact hne (List.cons.inj heq).1
  unfold document
  split
  · rename_i tail heq
    exact absurd heq (hmark tail)
  · simp only [bind, Except.bind, hstarts.skip_eq, hvalue, hend]

end Reader

/-- A legible value is read back from its laid out form, whatever blanks follow. -/
theorem read_laidOut {v : Value} (h : Legible maxDepth v) {blanks : String}
    (hblanks : ∀ c ∈ blanks.toList, Reader.isBlank c = true) :
    read (v.laidOut ++ blanks) = .ok v := by
  unfold read Value.laidOut
  simp only [String.toList_append, String.toList_ofList, Reader.document_block h hblanks]

end SegmentSwap.Json
