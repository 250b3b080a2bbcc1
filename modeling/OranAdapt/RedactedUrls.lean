import OranAdapt.PyStr

/-!
# URLs shown without their secrets

`_redact_url` of `core.config_sources`, and what of a password or a query
string it lets through. It looks for the last `@` of the whole text, which may
be one of the query.
-/

namespace OranAdapt.RedactedUrls

open PyStr

def redacted : List Char := "**********".toList

/-- The password behind the first colon in front of the last `@`. -/
def maskPassword (rest : List Char) : List Char :=
  match rpartition '@' rest with
  | some (userinfo, hostpart) =>
    if ':' ∈ userinfo then (partition ':' userinfo).1 ++ ':' :: (redacted ++ '@' :: hostpart) else rest
  | none => rest

def mark (query : Bool) : List Char := if query then '?' :: redacted else []

def maskQuery (rest : List Char) : List Char := (partition '?' rest).1 ++ mark (partition '?' rest).2.isSome

def redactUrl (value : List Char) : List Char :=
  match partitionAt "://".toList value with
  | (scheme, some rest) => scheme ++ ("://".toList ++ maskQuery (maskPassword rest))
  | (_, none) => value

/-! ## The form of a setting -/

structure UserInfo where
  user : List Char
  hasPassword : Bool
deriving DecidableEq

/-- `scheme://[user[:password]@]host[:port][/path][?query]` without what is secret in it. -/
structure UrlSetting where
  scheme : List Char
  userInfo : Option UserInfo
  host : List Char
  port : Option (List Char)
  path : List Char
  hasQuery : Bool
  scheme_plain : ':' ∉ scheme
  user_plain : ∀ info ∈ userInfo, ∀ c ∈ info.user, c ∉ ['@', ':', '/', '?']
  -- a colon of an IPv6 address
  host_plain : ∀ c ∈ host, c ∉ ['@', '/', '?']
  port_plain : ∀ digits ∈ port, ∀ c ∈ digits, c.isDigit = true
  path_plain : path.head?.all (· = '/') = true ∧ '?' ∉ path

structure Secrets where
  password : List Char
  query : List Char

namespace UrlSetting

variable (u : UrlSetting) (s : Secrets)

def portText : List Char :=
  match u.port with
  | some digits => ':' :: digits
  | none => []

def hostPath : List Char := u.host ++ (u.portText ++ u.path)

def userText : List Char :=
  match u.userInfo with
  | some ⟨user, true⟩ => user ++ ':' :: (s.password ++ ['@'])
  | some ⟨user, false⟩ => user ++ ['@']
  | none => []

def queryText : List Char := if u.hasQuery then '?' :: s.query else []

def text : List Char := u.scheme ++ ("://".toList ++ (u.userText s ++ (u.hostPath ++ u.queryText s)))

def plainUser : List Char :=
  match u.userInfo with
  | some info => info.user ++ ['@']
  | none => []

/-- What stands before the first colon, unless that is in the query. -/
def front : Option (List Char) :=
  match u.userInfo with
  | some ⟨user, true⟩ => some user
  | _ => if ':' ∈ u.hostPath then some (u.plainUser ++ (partition ':' u.hostPath).1) else none

/-- What follows the last `@` behind that colon, unless that is in the query. -/
def publicTail : Option (List Char) :=
  match u.userInfo with
  | some ⟨_, true⟩ => some (afterLast '@' u.hostPath)
  | _ =>
    match (partition ':' u.hostPath).2 with
    | some more => if '@' ∈ more then some (afterLast '@' more) else none
    | none => none

/-- What follows the last `@`, as far as the next question mark, and whether there is one. -/
def tail : Option (List Char × Bool) :=
  if u.hasQuery = true ∧ '@' ∈ s.query then
    some ((partition '?' (afterLast '@' s.query)).1, (partition '?' (afterLast '@' s.query)).2.isSome)
  else u.publicTail.map (·, u.hasQuery)

end UrlSetting

/-! ## What is shown -/

theorem mem_redacted : ∀ c ∈ redacted, c = '*' := PyStr.forall_chars (by decide)

theorem notMem_redacted {c : Char} (h : c ≠ '*') : c ∉ redacted := fun hc => h (mem_redacted c hc)

section
variable {a b rest : List Char}

theorem maskPassword_of_notMem (h : '@' ∉ rest) : maskPassword rest = rest := by
  simp [maskPassword, rpartition_of_notMem h]

theorem maskPassword_join (h : '@' ∉ b) :
    maskPassword (a ++ '@' :: b) =
      if ':' ∈ a then (partition ':' a).1 ++ ':' :: (redacted ++ '@' :: b) else a ++ '@' :: b := by
  simp [maskPassword, rpartition_join h]

theorem maskQuery_append (h : '?' ∉ a) : maskQuery (a ++ b) = a ++ maskQuery b := by
  simp [maskQuery, partition_append h]

theorem maskQuery_query : maskQuery ('?' :: b) = mark true := by
  simp [maskQuery, partition]

theorem redactUrl_scheme {scheme : List Char} (h : ':' ∉ scheme) (rest : List Char) :
    redactUrl (scheme ++ ("://".toList ++ rest)) = scheme ++ ("://".toList ++ maskQuery (maskPassword rest)) := by
  have hsplit : partitionAt "://".toList (scheme ++ ("://".toList ++ rest)) = (scheme, some rest) := by
    induction scheme with
    | nil => simp [partitionAt]
    | cons c cs ih =>
      rw [List.mem_cons, not_or] at h
      have hc : ':' ≠ c := h.1
      rw [List.cons_append, partitionAt, ih h.2]
      simp [List.isPrefixOf, hc]
  rw [redactUrl, hsplit]

end

namespace UrlSetting

variable (u : UrlSetting) (s : Secrets)

theorem hostPath_plain : '?' ∉ u.hostPath := by
  have hhost : '?' ∉ u.host := fun h => u.host_plain _ h (by simp)
  have hport : '?' ∉ u.portText := by
    rw [portText]
    split
    · rename_i digits hdigits
      intro h
      rcases List.mem_cons.mp h with h | h
      · cases h
      · cases u.port_plain digits hdigits _ h
    · simp
  simp [hostPath, hhost, hport, u.path_plain.2]

theorem maskQuery_queryText : maskQuery (u.queryText s) = mark u.hasQuery := by
  rw [queryText]
  cases u.hasQuery with
  | true => exact maskQuery_query
  | false => rfl

/-- What is left of a text that is shown up to its query. -/
def shown : Option (List Char) → Option (List Char × Bool) → List Char
  | some front, some (base, query) => front ++ ':' :: (redacted ++ '@' :: (base ++ mark query))
  | _, _ => u.plainUser ++ (u.hostPath ++ mark u.hasQuery)

theorem maskQuery_front {front rest : List Char} (h : '?' ∉ front) :
    maskQuery (front ++ ':' :: (redacted ++ '@' :: rest)) = front ++ ':' :: (redacted ++ '@' :: maskQuery rest) := by
  have hfront : '?' ∉ front ++ ':' :: (redacted ++ ['@']) := by
    simp [h, notMem_redacted]
  have hassoc (x : List Char) : front ++ ':' :: (redacted ++ '@' :: x) = (front ++ ':' :: (redacted ++ ['@'])) ++ x := by
    rw [List.append_assoc, List.cons_append, List.append_assoc, List.singleton_append]
  rw [hassoc rest, maskQuery_append hfront, ← hassoc]

theorem maskQuery_tail {a : List Char} (h : '?' ∉ a) : maskQuery (a ++ u.queryText s) = a ++ mark u.hasQuery := by
  rw [maskQuery_append h, u.maskQuery_queryText]

theorem mask_unchanged {rest : List Char} (h : ∀ before after, rest = before ++ '@' :: after →
    '@' ∉ after → ':' ∉ before) :
    maskPassword rest = rest := by
  by_cases hat : '@' ∈ rest
  · obtain ⟨before, after, rfl, hafter⟩ := exists_last hat
    rw [maskPassword_join hafter, if_neg (h before after rfl hafter)]
  · exact maskPassword_of_notMem hat

/-- The first colon, in front of the query: what follows the last `@` behind it is shown. -/
theorem mask_colon {front more : List Char} (hcolon : ':' ∉ front) (hfront : '?' ∉ front) :
    maskQuery (maskPassword (front ++ ':' :: more)) =
      if '@' ∈ more then front ++ ':' :: (redacted ++ '@' :: maskQuery (afterLast '@' more))
      else maskQuery (front ++ ':' :: more) := by
  by_cases hmore : '@' ∈ more
  · obtain ⟨before, after, rfl, hafter⟩ := exists_last hmore
    have hjoin : front ++ ':' :: (before ++ '@' :: after) = (front ++ ':' :: before) ++ '@' :: after := by simp
    rw [if_pos hmore, hjoin, maskPassword_join hafter, if_pos (by simp), partition_join hcolon, maskQuery_front hfront,
      afterLast_join hafter]
  · rw [if_neg hmore]
    congr 1
    apply mask_unchanged
    intro before after heq hafter hmem
    -- the last `@` stands in front of the colon
    rcases List.append_eq_append_iff.mp heq with ⟨mid, hbefore, hrest⟩ | ⟨mid, hbefore, hrest⟩
    · have : '@' ∈ mid ++ '@' :: after := by simp
      rw [← hrest] at this
      simp [hmore] at this
    · rw [hbefore] at hcolon
      simp [hmem] at hcolon

/-- No colon in front of the query: whatever the query is, the text is shown as far as it. -/
theorem mask_noColon {front : List Char} (hcolon : ':' ∉ front) (hfront : '?' ∉ front) :
    maskQuery (maskPassword (front ++ u.queryText s)) = front ++ mark u.hasQuery := by
  by_cases hat : '@' ∈ u.queryText s
  · have hquery : u.hasQuery = true := by
      by_contra hnone
      simp [queryText, hnone] at hat
    rw [queryText, if_pos hquery, List.mem_cons] at hat
    obtain ⟨before, after, hq, hafter⟩ := exists_last (hat.resolve_left (by decide))
    have hjoin : front ++ '?' :: s.query = (front ++ '?' :: before) ++ '@' :: after := by simp [hq]
    rw [queryText, if_pos hquery, hjoin, maskPassword_join hafter, hquery]
    split
    · rw [partition_append hcolon, List.append_assoc, maskQuery_append hfront]
      simp [partition, maskQuery_query]
    · rw [List.append_assoc, List.cons_append, maskQuery_append hfront, maskQuery_query]
  · rw [mask_unchanged, u.maskQuery_tail s hfront]
    intro before after heq hafter hmem
    rcases List.append_eq_append_iff.mp heq with ⟨mid, -, hrest⟩ | ⟨mid, hbefore, -⟩
    · have : '@' ∈ mid ++ '@' :: after := by simp
      rw [← hrest] at this
      exact hat this
    · rw [hbefore] at hcolon
      simp [hmem] at hcolon

theorem plainUser_plain : ':' ∉ u.plainUser ∧ '?' ∉ u.plainUser := by
  rw [plainUser]
  split
  · rename_i info hinfo
    have hplain := u.user_plain info hinfo
    constructor
    · intro h
      rcases List.mem_append.mp h with h | h
      · exact hplain _ h (by simp)
      · simp at h
    · intro h
      rcases List.mem_append.mp h with h | h
      · exact hplain _ h (by simp)
      · simp at h
  · simp

theorem mem_queryText : '@' ∈ u.queryText s ↔ u.hasQuery = true ∧ '@' ∈ s.query := by
  cases hquery : u.hasQuery <;> simp [queryText, hquery]

theorem maskQuery_afterLast {front : List Char} (hfront : '?' ∉ front) :
    maskQuery (afterLast '@' (front ++ u.queryText s)) =
      if u.hasQuery = true ∧ '@' ∈ s.query then maskQuery (afterLast '@' s.query)
      else afterLast '@' front ++ mark u.hasQuery := by
  by_cases hat : '@' ∈ u.queryText s
  · have hquery := (u.mem_queryText s).mp hat
    have hcons : '?' :: s.query = ['?'] ++ s.query := rfl
    rw [if_pos hquery, afterLast_append_of_mem hat, queryText, if_pos hquery.1, hcons, afterLast_append_of_mem hquery.2]
  · have hplain : '?' ∉ afterLast '@' front := fun h => hfront (mem_of_mem_afterLast h)
    rw [if_neg (mt (u.mem_queryText s).mpr hat), afterLast_append_of_notMem hat, u.maskQuery_tail s hplain]

theorem shown_password {user : List Char} (huser : u.userInfo = some ⟨user, true⟩) :
    maskQuery (maskPassword (u.userText s ++ (u.hostPath ++ u.queryText s))) = u.shown u.front (u.tail s) := by
  have hplain := u.user_plain _ huser
  have hcolon : ':' ∉ user := fun h => hplain _ h (by simp)
  have hquestion : '?' ∉ user := fun h => hplain _ h (by simp)
  have hrest : u.userText s ++ (u.hostPath ++ u.queryText s) =
      user ++ ':' :: (s.password ++ '@' :: (u.hostPath ++ u.queryText s)) := by
    simp [userText, huser]
  rw [hrest, mask_colon hcolon hquestion, if_pos (by simp), afterLast_after, u.maskQuery_afterLast s u.hostPath_plain]
  by_cases hquery : u.hasQuery = true ∧ '@' ∈ s.query
  · simp [front, tail, huser, hquery, shown, maskQuery]
  · simp [front, tail, publicTail, huser, hquery, shown]

theorem shown_public (hpassword : ∀ user, u.userInfo ≠ some ⟨user, true⟩) :
    maskQuery (maskPassword (u.userText s ++ (u.hostPath ++ u.queryText s))) = u.shown u.front (u.tail s) := by
  have huser : u.userText s = u.plainUser := by
    rw [userText, plainUser]
    split
    · rename_i user huser
      exact absurd huser (hpassword user)
    · rename_i user huser
      simp [huser]
    · rename_i hnone
      simp [hnone]
  have hfront : u.front = if ':' ∈ u.hostPath then some (u.plainUser ++ (partition ':' u.hostPath).1) else none := by
    rw [front]
    split
    · rename_i user huser
      exact absurd huser (hpassword user)
    · rfl
  have htail : u.publicTail = match (partition ':' u.hostPath).2 with
      | some more => if '@' ∈ more then some (afterLast '@' more) else none
      | none => none := by
    rw [publicTail]
    split
    · rename_i user huser
      exact absurd huser (hpassword user)
    · rfl
  obtain ⟨hcolonUser, hquestionUser⟩ := u.plainUser_plain
  have hpath := u.hostPath_plain
  rw [huser, hfront, tail, htail]
  by_cases hcolon : ':' ∈ u.hostPath
  · obtain ⟨first, more, hfirst, hmore, hpartition⟩ := exists_partition hcolon
    rw [hmore, List.mem_append, List.mem_cons, not_or, not_or] at hpath
    have hsplit : u.plainUser ++ (u.hostPath ++ u.queryText s) = (u.plainUser ++ first) ++
        ':' :: (more ++ u.queryText s) := by
      simp [hmore]
    rw [hsplit, mask_colon (by simp [hcolonUser, hfirst]) (by simp [hquestionUser, hpath.1]),
      u.maskQuery_afterLast s hpath.2.2, hpartition, if_pos hcolon]
    by_cases hquery : u.hasQuery = true ∧ '@' ∈ s.query
    · have hat := (u.mem_queryText s).mpr hquery
      simp [hquery, hat, shown, maskQuery]
    · have hnone := mt (u.mem_queryText s).mp hquery
      by_cases hat : '@' ∈ more
      · simp [hquery, hat, shown]
      · have hall : '?' ∉ (u.plainUser ++ first) ++ ':' :: more := by simp [hquestionUser, hpath.1, hpath.2.2]
        rw [if_neg (by simp [hnone, hat]), ← List.cons_append, ← List.append_assoc, u.maskQuery_tail s hall]
        simp [hquery, hat, shown, hmore]
  · rw [if_neg hcolon, ← List.append_assoc, u.mask_noColon s (by simp [hcolon, hcolonUser])
      (by simp [hpath, hquestionUser])]
    simp [shown]

/-- What is printed: the text behind the last `@`, where a colon stands in front of it, or all that is public. -/
theorem redactUrl_text : redactUrl (u.text s) = u.scheme ++ ("://".toList ++ u.shown u.front (u.tail s)) := by
  rw [text, redactUrl_scheme u.scheme_plain]
  by_cases hpassword : ∃ user, u.userInfo = some ⟨user, true⟩
  · obtain ⟨user, huser⟩ := hpassword
    rw [u.shown_password s huser]
  · rw [u.shown_public s fun user huser => hpassword ⟨user, huser⟩]

/-! ## Two settings with different secrets -/

/-- A text and whether its query is marked can be read off what is printed. -/
theorem mark_inj {a b : List Char} {query query' : Bool} (ha : '?' ∉ a) (hb : '?' ∉ b)
    (h : a ++ mark query = b ++ mark query') : a = b ∧ query = query' := by
  have hread {a : List Char} (query : Bool) (ha : '?' ∉ a) :
      (partition '?' (a ++ mark query)).1 = a ∧ (partition '?' (a ++ mark query)).2.isSome = query := by
    rw [partition_append ha]
    cases query <;> simp [mark, partition]
  have heq := hread query ha
  rw [h, (hread query' hb).1, (hread query' hb).2] at heq
  exact ⟨heq.1.symm, heq.2.symm⟩

theorem mem_publicTail {t : List Char} {c : Char} (h : u.publicTail = some t) (hc : c ∈ t) : c ∈ u.hostPath := by
  rw [publicTail] at h
  split at h
  · cases h
    exact mem_of_mem_afterLast hc
  · by_cases hcolon : ':' ∈ u.hostPath
    · obtain ⟨first, more, -, hmore, hpartition⟩ := exists_partition hcolon
      simp only [hpartition, Option.ite_none_right_eq_some, Option.some.injEq] at h
      obtain ⟨-, rfl⟩ := h
      rw [hmore]
      exact List.mem_append_right _ (List.mem_cons_of_mem _ (mem_of_mem_afterLast hc))
    · rw [partition_of_notMem hcolon] at h
      cases h

theorem tail_plain {base : List Char} {query : Bool} (h : u.tail s = some (base, query)) : '?' ∉ base := by
  rw [tail] at h
  split at h
  · cases h
    exact notMem_partition
  · obtain ⟨t, ht, h⟩ := Option.map_eq_some_iff.mp h
    cases h
    intro hmem
    exact u.hostPath_plain (u.mem_publicTail ht hmem)

/-- The text with a mask in it is not the public text, which then has no `@` behind its first colon. -/
theorem shown_ne {front : List Char} (hfront : u.front = some front) (hnone : u.publicTail = none) (rest : List Char) :
    front ++ ':' :: (redacted ++ '@' :: rest) ≠ u.plainUser ++ (u.hostPath ++ mark u.hasQuery) := by
  intro heq
  rw [UrlSetting.front] at hfront
  rw [publicTail] at hnone
  split at hfront
  · rename_i user huser
    simp [huser] at hnone
  · rename_i hpassword
    rw [Option.ite_none_right_eq_some, Option.some.injEq] at hfront
    obtain ⟨hcolon, rfl⟩ := hfront
    obtain ⟨first, more, -, hmore, hpartition⟩ := exists_partition hcolon
    split at hnone
    · rename_i user huser
      exact hpassword user huser
    · simp only [hpartition, ite_eq_right_iff, reduceCtorEq, imp_false] at hnone
      rw [hpartition, hmore, List.append_assoc, List.append_assoc, List.append_cancel_left_eq, List.append_cancel_left_eq,
        List.cons_append, List.cons.injEq] at heq
      have hat : '@' ∈ more ++ mark u.hasQuery := by
        rw [← heq.2]
        simp
      have hmark : '@' ∉ mark u.hasQuery := by
        cases u.hasQuery <;> simp [mark, notMem_redacted]
      simp [hnone, hmark] at hat

theorem publicTail_none {s : Secrets} (h : u.tail s = none) : u.publicTail = none := by
  rw [tail] at h
  split at h
  · cases h
  · exact Option.map_eq_none_iff.mp h

theorem shown_inj {front : List Char} (hfront : u.front = some front) {s s' : Secrets}
    (h : u.shown u.front (u.tail s) = u.shown u.front (u.tail s')) : u.tail s = u.tail s' := by
  rw [hfront] at h
  cases hs : u.tail s with
  | none =>
    cases hs' : u.tail s' with
    | none => rfl
    | some p =>
      rw [hs, hs'] at h
      exact absurd h.symm (u.shown_ne hfront (u.publicTail_none hs) _)
  | some p =>
    cases hs' : u.tail s' with
    | none =>
      rw [hs, hs'] at h
      exact absurd h (u.shown_ne hfront (u.publicTail_none hs') _)
    | some p' =>
      rw [hs, hs'] at h
      simp only [shown, List.append_cancel_left_eq, List.cons.injEq, true_and] at h
      obtain ⟨hbase, hquery⟩ := mark_inj (u.tail_plain s hs) (u.tail_plain s' hs') h
      rw [Option.some.injEq, Prod.ext_iff]
      exact ⟨hbase, hquery⟩

end UrlSetting

/-- Two settings that differ in their secrets are printed alike exactly where no colon stands in
front of the query, or the same follows the last `@` of both. -/
theorem redactUrl_same_iff (u : UrlSetting) (s s' : Secrets) :
    redactUrl (u.text s) = redactUrl (u.text s') ↔ u.front = none ∨ u.tail s = u.tail s' := by
  rw [u.redactUrl_text, u.redactUrl_text, List.append_cancel_left_eq, List.append_cancel_left_eq]
  constructor
  · intro h
    cases hfront : u.front with
    | none => exact .inl rfl
    | some front => exact .inr (u.shown_inj hfront h)
  · rintro (hfront | htail)
    · simp [hfront, UrlSetting.shown]
    · rw [htail]

def hostAndPort : UrlSetting where
  scheme := "http".toList
  userInfo := none
  host := "host".toList
  port := some "80".toList
  path := "/data".toList
  hasQuery := true
  scheme_plain := by decide
  user_plain := by simp
  host_plain := PyStr.forall_chars (by decide)
  port_plain digits hdigits := by
    cases hdigits
    exact PyStr.forall_chars (by decide)
  path_plain := by decide

/-- What follows an `@` in the query is printed, in place of the host. -/
theorem query_shown :
    redactUrl (hostAndPort.text ⟨[], "key=a@b".toList⟩) = "http://host:**********@b".toList ∧
      redactUrl (hostAndPort.text ⟨[], "key=a@c".toList⟩) = "http://host:**********@c".toList ∧
      redactUrl (hostAndPort.text ⟨[], "key=a@b".toList⟩) ≠
        redactUrl (hostAndPort.text ⟨[], "key=a@c".toList⟩) := by
  decide +kernel

end OranAdapt.RedactedUrls
