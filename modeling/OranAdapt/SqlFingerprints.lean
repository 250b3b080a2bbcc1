import OranAdapt.RankpiBounds
import OranAdapt.SqlRows
import Mathlib.Data.Set.Basic
import Mathlib.Logic.Function.Basic

/-!
# What the bytes of a query stand for

The streamed bytes say which texts the cells have, row by row, so they stand
for the rows where the text of a cell says what the value is. The order of the
rows is the database's, which leaves rows open that compare equal.
-/

namespace OranAdapt

namespace SqlDataset

open Datasets (Stream Bytes)

/-! ## The bytes of rows -/

theorem encode_append (s t : List Char) : encode (s ++ t) = encode s ++ encode t := by
  simp [encode, Utf8.encode]

theorem encode_inj {s t : List Char} (h : encode s = encode t) : s = t := by
  have := congrArg String.toList (Utf8.encode_inj h)
  simpa using this

section
variable {σ : Type} {uri : String}

def textOf (v : DbValue) : List Char :=
  match cell v with
  | .ok text => text
  | .error _ => []

def Prints (v : DbValue) : Prop := ∃ text, cell v = .ok text

theorem cell_of_prints {v : DbValue} (h : Prints v) : cell v = .ok (textOf v) := by
  obtain ⟨text, htext⟩ := h
  rw [textOf, htext]

theorem rowChunks_bytes {rows : List (List DbValue)} (h : ∀ row ∈ rows, ∀ v ∈ row, Prints v)
    (buffer : List Char) (i : Nat) :
    (rowChunks uri buffer i (rows.map .ok)).bytes =
      .ok (encode (buffer ++ CsvText.lines (rows.map fun row => row.map textOf))) := by
  induction rows generalizing buffer i with
  | nil => simp [rowChunks, Stream.bytes, CsvText.lines]
  | cons row rows ih =>
    have ih := ih fun r hr => h r (.tail _ hr)
    have hcells : (driver uri (.ok row) >>= fun values => values.mapM cell) = .ok (row.map textOf) :=
      mapM_ok_map fun v hv => cell_of_prints (h row (.head _) v hv)
    have hlines : CsvText.lines ((row :: rows).map fun row => row.map textOf) =
        CsvText.line (row.map textOf) ++ CsvText.lines (rows.map fun row => row.map textOf) := List.flatMap_cons
    rw [List.map_cons, rowChunks, hcells, hlines, ← List.append_assoc]
    simp only
    split
    · have hrest := ih [] (i + 1)
      generalize rowChunks uri [] (i + 1) (rows.map .ok) = s at hrest
      obtain ⟨chunks, fails⟩ := s
      cases fails with
      | some e => cases hrest
      | none =>
        have hflat : chunks.flatten = encode (CsvText.lines (rows.map fun row => row.map textOf)) := Except.ok.inj hrest
        rw [encode_append (buffer ++ _), ← hflat]
        rfl
    · exact ih _ _

/-- Rows that are streamed to the end are written cell by cell. -/
theorem prints_of_bytes {rows : List (List DbValue)} {buffer : List Char} {i : Nat} {bytes : Bytes}
    (h : (rowChunks uri buffer i (rows.map .ok)).bytes = .ok bytes) : ∀ row ∈ rows, ∀ v ∈ row, Prints v := by
  induction rows generalizing buffer i bytes with
  | nil => simp
  | cons row rows ih =>
    rw [List.map_cons, rowChunks] at h
    cases hcells : (driver uri (.ok row) >>= fun values => values.mapM cell) with
    | error e =>
      rw [hcells] at h
      cases h
    | ok cells =>
      rw [hcells] at h
      have hhead : ∀ v ∈ row, Prints v := by
        intro v hv
        obtain ⟨text, _, htext⟩ := exists_of_mem_left (mapM_ok hcells) hv
        exact ⟨text, htext⟩
      have htail : ∃ buffer i bytes, (rowChunks uri buffer i (rows.map .ok)).bytes = .ok bytes := by
        simp only at h
        split at h
        · refine ⟨[], i + 1, ?_⟩
          generalize rowChunks uri [] (i + 1) (rows.map .ok) = s at h
          obtain ⟨chunks, fails⟩ := s
          cases fails with
          | some e => cases h
          | none => exact ⟨_, rfl⟩
        · exact ⟨_, _, _, h⟩
      obtain ⟨_, _, _, hrest⟩ := htail
      intro r hr
      rcases List.mem_cons.mp hr with rfl | hr
      · exact hhead
      · exact ih hrest r hr

end

/-! ## States of a database -/

section
variable {ν σ : Type}

/-- How the values of each column are compared: `le n v w` is that `v` may stand in front of `w`. -/
structure Collation (σ : Type) where
  le : String → σ → σ → Prop
  refl : ∀ n v, le n v v

/-- The values compare equal. -/
def Collation.Tie (order : Collation σ) (n : String) (v w : σ) : Prop := order.le n v w ∧ order.le n w v

/-- A row by its columns may stand in front of another one. -/
def Collation.RowLe (order : Collation σ) : List String → (String → σ) → (String → σ) → Prop
  | [], _, _ => True
  | n :: ns, r, r' => order.le n (r n) (r' n) ∧ (order.le n (r' n) (r n) → order.RowLe ns r r')

/-- The rows in an order that the database may return them in. -/
structure Collation.Answers (order : Collation σ) (stmt : Select ν) (rows answer : List (String → σ)) : Prop where
  perm : answer.Perm rows
  sorted : answer.Pairwise (order.RowLe stmt.orderBy)

structure Domains (σ : Type) (columns : List String) where
  values : String → Set σ
  nonempty : ∀ n ∈ columns, (values n).Nonempty

def Domains.Holds {columns : List String} (domains : Domains σ columns) (rows : List (String → σ)) : Prop :=
  ∀ r ∈ rows, ∀ n ∈ columns, r n ∈ domains.values n

/-- The connection when the statement is answered with these rows, as the driver reads their values. -/
def answering (conn : Connection ν ResultRow) (read : σ → DbValue) (answer : List (String → σ)) :
    Connection ν ResultRow :=
  { conn with execute := fun stmt => .ok (answer.map fun r => .ok (stmt.columns.map fun n => read (r n))) }

def tuple (stmt : Select ν) (r : String → σ) : List σ := stmt.columns.map r

variable (rules : TextRules) (conv : Conversions ν) (a : SqlDataset) (uri : String) (read : σ → DbValue) in
def streamed (conn : Connection ν ResultRow) (answer : List (String → σ)) : Except AdaptationError Bytes :=
  (chunks rules conv a (fun _ => .ok (answering conn read answer)) uri).bytes

variable (rules : TextRules) (conv : Conversions ν) (a : SqlDataset) (uri : String)
  (read : σ → DbValue) (order : Collation σ)
  (q : Query) (stmt : Select ν) (domains : Domains σ stmt.columns) in
/-- The query's bytes are the same in two states exactly where its rows are, in any order they may come in. -/
def Faithful : Prop :=
  ∀ conn conn' rows rows' answer answer', executed rules conv a conn uri = .ok (q, stmt) →
    executed rules conv a conn' uri = .ok (q, stmt) →
    domains.Holds rows → domains.Holds rows' → order.Answers stmt rows answer → order.Answers stmt rows' answer' →
    ∃ bytes bytes', streamed rules conv a uri read conn answer = .ok bytes ∧
    streamed rules conv a uri read conn' answer' = .ok bytes' ∧
      (bytes = bytes' ↔ (rows.map (tuple stmt)).Perm (rows'.map (tuple stmt)))

end

/-! ## Rows that compare equal -/

section
variable {σ : Type} {order : Collation σ} {names : List String} {r r' : String → σ}

theorem ties_of_rowLe (h : order.RowLe names r r')
    (h' : order.RowLe names r' r) : ∀ n ∈ names, order.Tie n (r n) (r' n) := by
  induction names with
  | nil => simp
  | cons n names ih =>
    intro m hm
    rcases List.mem_cons.mp hm with rfl | hm
    · exact ⟨h.1, h'.1⟩
    · exact ih (h.2 h'.1) (h'.2 h.1) m hm

theorem rowLe_congr {s s' : String → σ} (hr : ∀ n ∈ names, r n = s n) (hr' : ∀ n ∈ names, r' n = s' n)
    (h : order.RowLe names r r') :
    order.RowLe names s s' := by
  induction names with
  | nil => trivial
  | cons n names ih =>
    obtain ⟨hle, hrest⟩ := h
    rw [hr n (.head _), hr' n (.head _)] at hle hrest
    exact ⟨hle, fun hge => ih (fun m hm => hr m (.tail _ hm)) (fun m hm => hr' m (.tail _ hm)) (hrest hge)⟩

theorem rowLe_of_ties (h : ∀ n ∈ names, order.Tie n (r n) (r' n)) : order.RowLe names r r' := by
  induction names with
  | nil => trivial
  | cons n names ih => exact ⟨(h n (.head _)).1, fun _ => ih fun m hm => h m (.tail _ hm)⟩

end

/-! ## The statement and its stream -/

section
variable {ν σ : Type} {rules : TextRules} {conv : Conversions ν} {a : SqlDataset} {uri : String}
  {read : σ → DbValue} {order : Collation σ}
  {q : Query} {stmt : Select ν} {domains : Domains σ stmt.columns} {conn : Connection ν ResultRow}
  {answer : List (String → σ)}

theorem mem_orderBy (h : executed rules conv a conn uri = .ok (q, stmt))
    (n : String) : n ∈ stmt.orderBy ↔ n ∈ stmt.columns := by
  obtain ⟨q', _, h⟩ := bind_ok h
  obtain ⟨stmt', hstmt, h⟩ := bind_ok h
  cases h
  obtain ⟨types, _, _, _, hselect⟩ := RankpiBounds.statement_ok hstmt
  obtain ⟨filters, _, hselect⟩ := bind_ok hselect
  obtain ⟨start, _, hselect⟩ := bind_ok hselect
  obtain ⟨stop, _, hselect⟩ := bind_ok hselect
  cases hselect
  by_cases hn : n = q.timeColumn
  · by_cases htime : q.timeColumn ∈ selectedColumns q types
    · simp [hn, htime]
    · simp [hn, htime]
  · by_cases htime : q.timeColumn ∈ selectedColumns q types
    · simp [hn, htime]
    · simp [hn, htime]

theorem chunks_answering (h : executed rules conv a conn uri = .ok (q, stmt)) :
    chunks rules conv a (fun _ => .ok (answering conn read answer)) uri =
      rowChunks uri (CsvText.line (stmt.columns.map String.toList)) 1
        ((answer.map fun r => stmt.columns.map fun n => read (r n)).map .ok) := by
  obtain ⟨q', hparse, h⟩ := bind_ok h
  obtain ⟨stmt', hstmt, h⟩ := bind_ok h
  cases h
  have hstmt' : statement rules conv a (answering conn read answer) uri q = .ok stmt := hstmt
  rw [chunks, hparse, List.map_map]
  show Stream.ofExcept (statement rules conv a (answering conn read answer) uri q >>= _) = _
  rw [hstmt']
  rfl

def written (stmt : Select ν) (read : σ → DbValue) (answer : List (String → σ)) : List (List (List Char)) :=
  stmt.columns.map String.toList :: answer.map fun r => stmt.columns.map fun n => textOf (read (r n))

theorem streamed_eq (h : executed rules conv a conn uri = .ok (q, stmt))
    (hall : ∀ r ∈ answer, ∀ n ∈ stmt.columns, Prints (read (r n))) :
    streamed rules conv a uri read conn answer = .ok (encode (CsvText.lines (written stmt read answer))) := by
  rw [streamed, chunks_answering h, rowChunks_bytes]
  · have hlines : CsvText.lines (written stmt read answer) = CsvText.line (stmt.columns.map String.toList) ++
        CsvText.lines (answer.map fun r => stmt.columns.map fun n => textOf (read (r n))) := List.flatMap_cons
    have htexts : ((answer.map fun r => stmt.columns.map fun n => read (r n)).map fun row => row.map textOf) =
        answer.map fun r => stmt.columns.map fun n => textOf (read (r n)) := by
      rw [List.map_map]
      apply List.map_congr_left
      intro r _
      exact List.map_map
    rw [hlines, htexts]
  · intro row hrow v hv
    obtain ⟨r, hr, rfl⟩ := List.mem_map.mp hrow
    obtain ⟨n, hn, rfl⟩ := List.mem_map.mp hv
    exact hall r hr n hn

theorem prints_of_streamed (h : executed rules conv a conn uri = .ok (q, stmt)) {bytes : Bytes}
    (hbytes : streamed rules conv a uri read conn answer = .ok bytes) :
    ∀ r ∈ answer, ∀ n ∈ stmt.columns, Prints (read (r n)) := by
  rw [streamed, chunks_answering h] at hbytes
  intro r hr n hn
  exact prints_of_bytes hbytes _ (List.mem_map_of_mem hr) _ (List.mem_map_of_mem hn)

theorem written_congr {answer' : List (String → σ)} (h : answer.map (tuple stmt) = answer'.map (tuple stmt)) :
    written stmt read answer = written stmt read answer' := by
  have hwritten : ∀ answer : List (String → σ), written stmt read answer =
      stmt.columns.map String.toList :: (answer.map (tuple stmt)).map fun t => t.map fun v => textOf (read v) := by
    intro answer
    simp [written, tuple, Function.comp_def]
  rw [hwritten, hwritten, h]

/-- Bytes that are the same were written from cells with the same texts, row by row. -/
theorem written_of_bytes {answer' : List (String → σ)}
    (h : encode (CsvText.lines (written stmt read answer)) = encode (CsvText.lines (written stmt read answer'))) :
    (answer.map fun r => stmt.columns.map fun n => textOf (read (r n))) =
      answer'.map fun r => stmt.columns.map fun n => textOf (read (r n)) :=
  (List.cons.inj (CsvText.lines_inj (encode_inj h))).2

/-! ## When the bytes stand for the rows -/

/-- The texts and the comparison of a column tell its values apart, and each is written. -/
def TellsApart (read : σ → DbValue) (order : Collation σ) (domains : Domains σ stmt.columns) : Prop :=
  ∀ n ∈ stmt.columns, ∀ v ∈ domains.values n, Prints (read v) ∧
    ∀ w ∈ domains.values n, cell (read v) = cell (read w) ∨ order.Tie n v w → v = w

theorem tuple_eq_iff {r r' : String → σ} : tuple stmt r = tuple stmt r' ↔ ∀ n ∈ stmt.columns, r n = r' n :=
  List.map_inj_left

theorem texts_eq (happart : TellsApart read order domains) {r r' : String → σ}
    (hr : ∀ n ∈ stmt.columns, r n ∈ domains.values n)
    (hr' : ∀ n ∈ stmt.columns, r' n ∈ domains.values n)
    (h : (stmt.columns.map fun n => textOf (read (r n))) = stmt.columns.map fun n => textOf (read (r' n))) :
    tuple stmt r = tuple stmt r' := by
  rw [tuple_eq_iff]
  intro n hn
  have htext := List.map_inj_left.mp h n hn
  obtain ⟨hprints, hsame⟩ := happart n hn (r n) (hr n hn)
  apply hsame (r' n) (hr' n hn)
  rw [cell_of_prints hprints, cell_of_prints (happart n hn (r' n) (hr' n hn)).1, htext]
  exact .inl rfl

/-- The rows of two answers are the same where the texts of their cells are. -/
theorem tuples_eq (happart : TellsApart read order domains) {answer answer' : List (String → σ)}
    (hin : domains.Holds answer)
    (hin' : domains.Holds answer') (h : (answer.map fun r => stmt.columns.map fun n => textOf (read (r n))) =
      answer'.map fun r => stmt.columns.map fun n => textOf (read (r n))) :
      answer.map (tuple stmt) = answer'.map (tuple stmt) := by
  induction answer generalizing answer' with
  | nil =>
    cases answer' with
    | nil => rfl
    | cons r' answer' => cases h
  | cons r answer ih =>
    cases answer' with
    | nil => cases h
    | cons r' answer' =>
      obtain ⟨hhead, htail⟩ := List.cons.inj h
      rw [List.map_cons, List.map_cons, texts_eq happart (hin r (.head _)) (hin' r' (.head _)) hhead,
        ih (fun q hq => hin q (.tail _ hq)) (fun q hq => hin' q (.tail _ hq)) htail]

/-- Rows that were selected in one order have no other order where only equal values compare equal. -/
theorem sorted_unique (h : executed rules conv a conn uri = .ok (q, stmt)) (happart : TellsApart read order domains)
    {answer answer' : List (String → σ)} (hin : domains.Holds answer) (hin' : domains.Holds answer')
    (hsorted : answer.Pairwise (order.RowLe stmt.orderBy)) (hsorted' : answer'.Pairwise (order.RowLe stmt.orderBy))
    (hperm : (answer.map (tuple stmt)).Perm (answer'.map (tuple stmt))) :
    answer.map (tuple stmt) = answer'.map (tuple stmt) := by
  let le (t u : List σ) : Prop := ∃ r r', (∀ n ∈ stmt.columns, r n ∈ domains.values n) ∧
    (∀ n ∈ stmt.columns, r' n ∈ domains.values n) ∧
    tuple stmt r = t ∧ tuple stmt r' = u ∧ order.RowLe stmt.orderBy r r'
  have hle {answer : List (String → σ)} (hin : domains.Holds answer)
    (hsorted : answer.Pairwise (order.RowLe stmt.orderBy)) :
      (answer.map (tuple stmt)).Pairwise le := by
    rw [List.pairwise_map]
    exact hsorted.imp_of_mem fun {r r'} hr hr' hrow => ⟨r, r', hin r hr, hin r' hr', rfl, rfl, hrow⟩
  apply List.Perm.eq_of_pairwise _ (hle hin hsorted) (hle hin' hsorted') hperm
  rintro _ _ _ _ ⟨r, s, hr, hs, rfl, rfl, hrs⟩ ⟨s', r', hs', hr', htuple', htuple, hsr⟩
  rw [tuple_eq_iff] at htuple htuple'
  have hsr' : order.RowLe stmt.orderBy s r := by
    apply rowLe_congr _ _ hsr
    · exact fun n hn => htuple' n ((mem_orderBy h n).mp hn)
    · exact fun n hn => htuple n ((mem_orderBy h n).mp hn)
  rw [tuple_eq_iff]
  intro n hn
  exact (happart n hn (r n) (hr n hn)).2 (s n) (hs n hn) (.inr (ties_of_rowLe hrs hsr' n ((mem_orderBy h n).mpr hn)))

theorem faithful_of_tellsApart (happart : TellsApart read order domains) :
    Faithful rules conv a uri read order q stmt domains := by
  intro conn conn' rows rows' answer answer' h h' hrows hrows' hanswer hanswer'
  have hin : domains.Holds answer := fun r hr => hrows r (hanswer.perm.mem_iff.mp hr)
  have hin' : domains.Holds answer' := fun r hr => hrows' r (hanswer'.perm.mem_iff.mp hr)
  refine ⟨_, _, streamed_eq h fun r hr n hn => (happart n hn (r n) (hin r hr n hn)).1,
    streamed_eq h' fun r hr n hn => (happart n hn (r n) (hin' r hr n hn)).1, ?_⟩
  constructor
  · intro hbytes
    have htuples := tuples_eq happart hin hin' (written_of_bytes hbytes)
    exact (hanswer.perm.map _).symm.trans (htuples ▸ hanswer'.perm.map _)
  · intro hperm
    have htuples := sorted_unique h happart hin hin' hanswer.sorted hanswer'.sorted
      (((hanswer.perm.map _).trans hperm).trans (hanswer'.perm.map _).symm)
    rw [written_congr htuples]

/-- Rows that differ in one column at most, one for each value. -/
structure OneColumn (domains : Domains σ stmt.columns) (n : String) (row : σ → String → σ) : Prop where
  value : ∀ w, row w n = w
  other : ∀ w w' m, m ≠ n → row w m = row w' m
  holds : ∀ w ∈ domains.values n, ∀ m ∈ stmt.columns, row w m ∈ domains.values m

theorem exists_oneColumn (domains : Domains σ stmt.columns) (n : String) (v : σ) : ∃ row, OneColumn domains n row := by
  have hvalue : ∀ m, ∃ x, m ∈ stmt.columns → x ∈ domains.values m := by
    intro m
    by_cases hm : m ∈ stmt.columns
    · obtain ⟨x, hx⟩ := domains.nonempty m hm
      exact ⟨x, fun _ => hx⟩
    · exact ⟨v, fun h => absurd h hm⟩
  choose rest hrest using hvalue
  refine ⟨fun w m => if m = n then w else rest m, ?_, ?_, ?_⟩
  · simp
  · intro w w' m hm
    simp [hm]
  · intro w hw m hm
    by_cases heq : m = n
    · subst heq
      simpa using hw
    · simpa [heq] using hrest m hm

theorem OneColumn.state {n : String} {row : σ → String → σ} (hrow : OneColumn domains n row)
    {l : List σ} (hl : ∀ w ∈ l, w ∈ domains.values n) :
    domains.Holds (l.map row) := by
  intro r hr
  obtain ⟨w, hw, rfl⟩ := List.mem_map.mp hr
  exact hrow.holds w (hl w hw)

theorem OneColumn.texts_eq {n : String} {row : σ → String → σ} (hrow : OneColumn domains n row) {v w : σ}
    (h : textOf (read v) = textOf (read w)) :
    (stmt.columns.map fun m => textOf (read (row v m))) = stmt.columns.map fun m => textOf (read (row w m)) := by
  apply List.map_congr_left
  intro m _
  by_cases hm : m = n
  · rw [hm, hrow.value, hrow.value, h]
  · rw [hrow.other v w m hm]

theorem OneColumn.ties {n : String} {row : σ → String → σ} (hrow : OneColumn domains n row)
    {v w : σ} (h : order.Tie n v w)
    (names : List String) : order.RowLe names (row v) (row w) := by
  apply rowLe_of_ties
  intro m _
  by_cases hm : m = n
  · rw [hm, hrow.value, hrow.value]
    exact h
  · rw [hrow.other v w m hm]
    exact ⟨order.refl _ _, order.refl _ _⟩

section
variable (h : executed rules conv a conn uri = .ok (q, stmt))
  (hfaithful : Faithful rules conv a uri read order q stmt domains)
  {n : String} (hn : n ∈ stmt.columns) {row : σ → String → σ} (hrow : OneColumn domains n row)
include h hfaithful hrow

theorem OneColumn.bytes_iff {l l' answer answer' : List σ} (hl : ∀ w ∈ l, w ∈ domains.values n)
    (hl' : ∀ w ∈ l', w ∈ domains.values n)
    (hanswer : order.Answers stmt (l.map row) (answer.map row))
    (hanswer' : order.Answers stmt (l'.map row) (answer'.map row)) :
    (∀ w ∈ answer, ∀ m ∈ stmt.columns, Prints (read (row w m))) ∧
      (written stmt read (answer.map row) = written stmt read (answer'.map row) ↔
        ((l.map row).map (tuple stmt)).Perm ((l'.map row).map (tuple stmt))) := by
  obtain ⟨bytes, bytes', hbytes, hbytes', hsame⟩ :=
    hfaithful conn conn _ _ _ _ h h (hrow.state hl) (hrow.state hl') hanswer hanswer'
  have hprints := prints_of_streamed h hbytes
  have hprints' := prints_of_streamed h hbytes'
  rw [streamed_eq h hprints] at hbytes
  rw [streamed_eq h hprints'] at hbytes'
  cases hbytes
  cases hbytes'
  refine ⟨fun w hw => hprints _ (List.mem_map_of_mem hw), ?_⟩
  rw [← hsame]
  constructor
  · intro heq
    rw [heq]
  · intro heq
    exact CsvText.lines_inj (encode_inj heq)

include hn

theorem OneColumn.prints {v : σ} (hv : v ∈ domains.values n) : Prints (read v) := by
  have hone : order.Answers stmt ([v].map row) ([v].map row) := ⟨.refl _, List.pairwise_singleton _ _⟩
  have hprints := (hrow.bytes_iff h hfaithful (by simpa using hv) (by simpa using hv) hone hone).1 v (.head _) n hn
  rwa [hrow.value] at hprints

/-- A state that has the one value, and a state that has the other. -/
theorem OneColumn.eq_of_texts {v w : σ} (hv : v ∈ domains.values n) (hw : w ∈ domains.values n)
    (htext : textOf (read v) = textOf (read w)) :
    v = w := by
  have hone : ∀ w, order.Answers stmt ([w].map row) ([w].map row) := fun _ => ⟨.refl _, List.pairwise_singleton _ _⟩
  have hsame := (hrow.bytes_iff h hfaithful (by simpa using hv) (by simpa using hw) (hone v) (hone w)).2
  have hwritten : written stmt read ([v].map row) = written stmt read ([w].map row) := by
    simp only [written, List.map_cons, List.map_nil, hrow.texts_eq htext]
  have htuple : tuple stmt (row v) = tuple stmt (row w) := by simpa using hsame.mp hwritten
  have hvalue := tuple_eq_iff.mp htuple n hn
  rwa [hrow.value, hrow.value] at hvalue

theorem OneColumn.texts_of_tie {v w : σ} (hv : v ∈ domains.values n) (hw : w ∈ domains.values n)
    (htie : order.Tie n v w) :
    textOf (read v) = textOf (read w) := by
  have hpair : ∀ {v w}, order.Tie n v w → ([v, w].map row).Pairwise (order.RowLe stmt.orderBy) := fun htie => by
    simpa using hrow.ties htie stmt.orderBy
  have hboth : ∀ u ∈ [v, w], u ∈ domains.values n := by simp [hv, hw]
  have hsame := (hrow.bytes_iff h hfaithful hboth hboth ⟨.refl _, hpair htie⟩
    ⟨(List.Perm.swap v w []).map row, hpair ⟨htie.2, htie.1⟩⟩).2
  have hwritten := (List.cons.inj (hsame.mpr (.refl _))).2
  have htexts := List.map_inj_left.mp (List.cons.inj hwritten).1 n hn
  rwa [hrow.value, hrow.value] at htexts

end

theorem tellsApart_of_faithful (h : executed rules conv a conn uri = .ok (q, stmt))
    (hfaithful : Faithful rules conv a uri read order q stmt domains) :
    TellsApart read order domains := by
  intro n hn v hv
  obtain ⟨row, hrow⟩ := exists_oneColumn domains n v
  refine ⟨hrow.prints h hfaithful hn hv, ?_⟩
  intro w hw hsame
  apply hrow.eq_of_texts h hfaithful hn hv hw
  rcases hsame with hcell | htie
  · rw [textOf, textOf, hcell]
  · exact hrow.texts_of_tie h hfaithful hn hv hw htie

/-- Bytes stand for the rows where no two values that a column may hold are written alike or compare equal. -/
theorem faithful_iff (h : executed rules conv a conn uri = .ok (q, stmt)) :
    Faithful rules conv a uri read order q stmt domains ↔ TellsApart read order domains := by
  constructor
  · exact tellsApart_of_faithful h
  · exact faithful_of_tellsApart

/-- The fingerprint of two answers is the same where their bytes are, unless SHA-256 collides on them. -/
theorem stat_fingerprint {connect : String → Except DriverError (Connection ν ResultRow)}
    {sha256 : Bytes → String} {stat : Datasets.SourceStat}
    (h : SqlDataset.stat rules conv a connect uri sha256 = .ok stat) :
    ∃ bytes, (chunks rules conv a connect uri).bytes = .ok bytes ∧
      stat.fingerprint = some ("sha256:" ++ sha256 bytes) := by
  obtain ⟨bytes, hbytes, h⟩ := bind_ok h
  cases h
  obtain ⟨rest, hrest, heq⟩ := Datasets.consume_ok hbytes
  exact ⟨bytes, by rw [hrest, heq, List.nil_append], rfl⟩

end

/-! ## Values of a rate view -/

def ratesDb : Connection Unit ResultRow where
  getColumns := RankpiBounds.rates.getColumns
  endedAt := RankpiBounds.rates.endedAt
  dropped := RankpiBounds.rates.dropped
  execute _ := .ok []

def runSelect : Select Unit :=
  ⟨"v_ue_rate", ["ts", "run_id", "serving_cell"], [.eq "run_id" (.int 5)], ["ts", "run_id", "serving_cell"]⟩

theorem executed_ratesDb :
    executed RankpiBounds.plainRules RankpiBounds.noConversions (RankpiBounds.rankpi RankpiBounds.rateSettings) ratesDb
    "rankpi:///v_ue_rate?run_id=5" = .ok (RankpiBounds.rateQuery [("run_id", ["5"])] none, runSelect) :=
  RankpiBounds.executed_run

def nullsLast : Collation DbValue where
  le _ v w := w = .null ∨ v ≠ .null ∧ textOf v ≤ textOf w
  refl _ v := by
    by_cases h : v = .null
    · exact .inl h
    · exact .inr ⟨h, le_rfl⟩

theorem texts_of_nullsLast {n : String} {v w : DbValue} (h : nullsLast.Tie n v w) : textOf v = textOf w := by
  rcases h with ⟨rfl | ⟨hv, hle⟩, rfl | ⟨hw, hge⟩⟩
  · rfl
  · exact absurd rfl hw
  · exact absurd rfl hv
  · exact le_antisymm hle hge

def stamp (second : String) : DbValue := .moment ("2024-05-01T00:00:0" ++ second)

/-- What run 5 may hold in a column, and `cells` in the last one. -/
def ofRun (cells : Set DbValue) (n : String) : Set DbValue :=
  if n = "ts" then {stamp "0", stamp "1"} else if n = "run_id" then {.int 5} else cells

theorem mem_runColumns {n : String} (h : n ∈ runSelect.columns) : n = "ts" ∨ n = "run_id" ∨ n = "serving_cell" := by
  simpa [runSelect] using h

def runDomains (cells : Set DbValue) (h : cells.Nonempty) : Domains DbValue runSelect.columns where
  values := ofRun cells
  nonempty n hn := by
    rcases mem_runColumns hn with rfl | rfl | rfl
    · exact ⟨stamp "0", .inl rfl⟩
    · exact ⟨.int 5, rfl⟩
    · exact h

theorem tellsApart_run {cells : Set DbValue} (h : cells.Nonempty) (hprints : ∀ v ∈ cells, Prints v)
    (hcells : ∀ v ∈ cells, ∀ w ∈ cells, textOf v = textOf w → v = w) :
    TellsApart id nullsLast (runDomains cells h) := by
  have htexts : ∀ n ∈ runSelect.columns, ∀ v ∈ ofRun cells n, Prints v ∧
      ∀ w ∈ ofRun cells n, textOf v = textOf w → v = w := by
    intro n hn v hv
    rcases mem_runColumns hn with rfl | rfl | rfl
    · constructor
      · rcases hv with rfl | rfl <;> exact ⟨_, rfl⟩
      · rintro w hw htext
        rcases hv with rfl | rfl <;> rcases hw with rfl | rfl
        · rfl
        · exact absurd htext (by decide)
        · exact absurd htext (by decide)
        · rfl
    · obtain rfl : v = .int 5 := hv
      exact ⟨⟨_, rfl⟩, fun w hw _ => hw.symm⟩
    · exact ⟨hprints v hv, hcells v hv⟩
  intro n hn v hv
  obtain ⟨hprint, hsame⟩ := htexts n hn v hv
  refine ⟨hprint, ?_⟩
  rintro w hw (hcell | htie)
  · have htext : cell v = cell w := hcell
    exact hsame w hw (by rw [textOf, textOf, htext])
  · exact hsame w hw (texts_of_nullsLast htie)

def nullOrCell : Set DbValue := {.null, .str "nr-1"}

theorem nullOrCell_nonempty : nullOrCell.Nonempty := ⟨.null, .inl rfl⟩

/-- The rows of run 5 at two times, with a cell or without one. -/
theorem faithful_cells : Faithful RankpiBounds.plainRules RankpiBounds.noConversions
    (RankpiBounds.rankpi RankpiBounds.rateSettings)
    "rankpi:///v_ue_rate?run_id=5" id nullsLast (RankpiBounds.rateQuery [("run_id", ["5"])] none) runSelect
    (runDomains nullOrCell nullOrCell_nonempty) := by
  apply (faithful_iff executed_ratesDb).mpr
  apply tellsApart_run
  · rintro v (rfl | rfl)
    · exact ⟨_, rfl⟩
    · exact ⟨_, rfl⟩
  · rintro v (rfl | rfl) w (rfl | rfl) htext
    · rfl
    · exact absurd htext (by decide)
    · exact absurd htext (by decide)
    · rfl

def nullOrEmpty : Set DbValue := {.null, .str ""}

theorem nullOrEmpty_nonempty : nullOrEmpty.Nonempty := ⟨.null, .inl rfl⟩

def rowOfRun (v : DbValue) (n : String) : DbValue := if n = "ts" then stamp "0" else if n = "run_id" then .int 5 else v

theorem rowOfRun_holds {v : DbValue} (hv : v ∈ nullOrEmpty) :
    (runDomains nullOrEmpty nullOrEmpty_nonempty).Holds [rowOfRun v] := by
  intro r hr n hn
  rw [List.mem_singleton.mp hr]
  rcases mem_runColumns hn with rfl | rfl | rfl
  · exact .inl rfl
  · exact rfl
  · exact hv

/-- A null is written like the empty text. -/
theorem null_written_empty :
    ¬ ∀ (ν σ : Type) (rules : TextRules) (conv : Conversions ν) (a : SqlDataset) (conn : Connection ν ResultRow)
    (uri : String) (q : Query) (stmt : Select ν) (read : σ → DbValue) (order : Collation σ)
      (domains : Domains σ stmt.columns),
    executed rules conv a conn uri = .ok (q, stmt) → Faithful rules conv a uri read order q stmt domains := by
  intro hall
  have hfaithful := hall _ _ _ _ _ _ _ _ _ id nullsLast (runDomains nullOrEmpty nullOrEmpty_nonempty) executed_ratesDb
  have hone : ∀ v, nullsLast.Answers runSelect [rowOfRun v] [rowOfRun v] :=
    fun _ => ⟨.refl _, List.pairwise_singleton _ _⟩
  have hprints : ∀ v ∈ nullOrEmpty, ∀ r ∈ [rowOfRun v], ∀ n ∈ runSelect.columns, Prints (id (r n)) := by
    intro v hv r hr n hn
    rw [List.mem_singleton.mp hr]
    rcases mem_runColumns hn with rfl | rfl | rfl
    · exact ⟨_, rfl⟩
    · exact ⟨_, rfl⟩
    · rcases hv with rfl | rfl
      · exact ⟨_, rfl⟩
      · exact ⟨_, rfl⟩
  obtain ⟨bytes, bytes', hbytes, hbytes', hsame⟩ := hfaithful ratesDb ratesDb _ _ _ _ executed_ratesDb executed_ratesDb
    (rowOfRun_holds (.inl rfl)) (rowOfRun_holds (.inr rfl)) (hone .null) (hone (.str ""))
  have heq : bytes = bytes' := by
    rw [streamed_eq executed_ratesDb (hprints .null (.inl rfl))] at hbytes
    rw [streamed_eq executed_ratesDb (hprints (.str "") (.inr rfl))] at hbytes'
    cases hbytes
    cases hbytes'
    rfl
  have hperm := hsame.mp heq
  simp [tuple, runSelect, rowOfRun] at hperm

end SqlDataset

end OranAdapt
