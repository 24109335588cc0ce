import DevRelay.Logging.LogRedaction

/-!
# Credentials in URLs

What the pass over the URLs leaves does not depend on the userinfo of a URL that it reaches.  It
reaches one when every URL before it has ended.
-/

namespace DevRelay.Logging

open DevRelay.Lib

/-- What a URL has behind its scheme. -/
def urlRun (rest : List Char) : List Char := rest.takeWhile fun c => !endsUrl c

/-- The authority of a URL, by what stands behind its scheme. -/
def authorityOf (rest : List Char) : List Char := (urlRun rest).takeWhile (· ≠ '/')

/-- What is written behind the scheme. -/
def hideUserinfo (run : List Char) : List Char :=
  match rsplitOnce '@' (run.takeWhile (· ≠ '/')) with
  | none => run
  | some (_, host) => redacted ++ ('@' :: host ++ run.drop (run.takeWhile (· ≠ '/')).length)

/-- A character that a userinfo can have where the pass is to see it whole. -/
def IsUserinfo (userinfo : List Char) : Prop :=
  ∀ c ∈ userinfo, endsUrl c = false ∧ c ≠ '/'

/-- Every URL of the text has ended. -/
def UrlsEnd (text : List Char) : Prop :=
  ∀ scheme ∈ urlSchemes, ∀ before rest, text = before ++ (scheme ++ rest) →
    ∃ c ∈ rest, endsUrl c = true

/-- No URL of the text has a userinfo, but for those that were redacted. -/
def CredentialFree (text : List Char) : Prop :=
  ∀ scheme ∈ urlSchemes, ∀ before rest, text = before ++ (scheme ++ rest) →
    '@' ∉ authorityOf rest ∨
      ∃ host, authorityOf rest = redacted ++ '@' :: host ∧ '@' ∉ host

section

variable {text before rest tail run userinfo scheme : List Char}

/-! ## Schemes -/

theorem isUserinfo_of_all (h : userinfo.all (fun c => !endsUrl c && c ≠ '/') = true) :
    IsUserinfo userinfo := by
  intro c hc
  simpa using List.all_eq_true.mp h c hc

theorem isUserinfo_redacted : IsUserinfo redacted := isUserinfo_of_all (by decide)

/-- A text that is shorter than every scheme has no URL. -/
theorem urlsEnd_of_short (h : text.length < 6) : UrlsEnd text := by
  rintro scheme hscheme before rest rfl
  have hall : ∀ scheme ∈ urlSchemes, 6 ≤ scheme.length := by decide
  have hlong := hall scheme hscheme
  rw [List.length_append, List.length_append] at h
  omega

theorem runs_of_scheme (h : scheme ∈ urlSchemes) : ∀ c ∈ scheme, endsUrl c = false := by
  have hall : (urlSchemes.all fun scheme => scheme.all fun c => !endsUrl c) = true := by decide
  intro c hc
  simpa using List.all_eq_true.mp (List.all_eq_true.mp hall scheme h) c hc

theorem scheme_ne_nil (h : scheme ∈ urlSchemes) : scheme ≠ [] := by
  have hall : ∀ scheme ∈ urlSchemes, scheme ≠ [] := by decide
  exact hall scheme h

theorem find?_scheme (h : scheme ∈ urlSchemes) (rest : List Char) :
    (urlSchemes.find? fun other => other.isPrefixOf (scheme ++ rest)) = some scheme := by
  simp only [urlSchemes, List.mem_cons, List.not_mem_nil, or_false] at h
  rcases h with rfl | rfl | rfl
  · rfl
  · rfl
  · rfl

/-- No scheme begins inside another one. -/
theorem not_scheme_within {other front : List Char} (hscheme : scheme ∈ urlSchemes)
    (hother : other ∈ urlSchemes) (hfront : front ≠ []) (hshort : front.length < other.length) :
    ¬other <+: front ++ (scheme ++ rest) := by
  intro hprefixed
  have hapart : ∀ a ∈ urlSchemes, ∀ b ∈ urlSchemes, ∀ k < a.length, 0 < k →
      ¬a.drop k <+: b ∧ ¬b <+: a.drop k := by decide
  obtain ⟨hno, hno'⟩ := hapart other hother scheme hscheme front.length hshort
    (List.length_pos_iff.mpr hfront)
  obtain ⟨more, hmore⟩ := hprefixed
  have hdrop : other.drop front.length ++ more = scheme ++ rest := by
    rw [← List.drop_append_of_le_length (Nat.le_of_lt hshort), hmore, List.drop_left]
  rcases List.prefix_or_prefix_of_prefix ⟨more, hdrop⟩ (List.prefix_append scheme rest) with h | h
  · exact hno h
  · exact hno' h

/-! ## One URL -/

theorem urlRun_append (h : ∀ c ∈ before, endsUrl c = false) :
    urlRun (before ++ rest) = before ++ urlRun rest := by
  apply List.takeWhile_append_of_pos
  intro c hc
  simp [h c hc]

theorem redactUrlUserinfo_eq (run scheme : List Char) :
    redactUrlUserinfo (scheme ++ run) scheme = scheme ++ hideUserinfo run := by
  unfold redactUrlUserinfo hideUserinfo
  rw [List.drop_left]
  dsimp only
  cases hsplit : rsplitOnce '@' (run.takeWhile (· ≠ '/')) with
  | none => rfl
  | some parts =>
    dsimp only
    rw [List.take_left, ← List.drop_drop, List.drop_left, List.append_assoc]

theorem credentialedUrl_scheme (h : scheme ∈ urlSchemes) (rest : List Char) :
    credentialedUrl (scheme ++ rest) =
      some (scheme ++ hideUserinfo (urlRun rest), (scheme ++ urlRun rest).length) := by
  have hrun : (scheme ++ rest).takeWhile (fun c => !endsUrl c) = scheme ++ urlRun rest :=
    urlRun_append (runs_of_scheme h)
  unfold credentialedUrl
  rw [find?_scheme h, Option.map_some]
  dsimp only
  rw [hrun, redactUrlUserinfo_eq]

theorem credentialedUrl_eq_some {output : List Char} {length : ℕ}
    (h : credentialedUrl text = some (output, length)) :
    ∃ scheme ∈ urlSchemes, ∃ rest, text = scheme ++ rest ∧
      output = scheme ++ hideUserinfo (urlRun rest) ∧ length = (scheme ++ urlRun rest).length := by
  cases hfind : urlSchemes.find? fun scheme => scheme.isPrefixOf text with
  | none =>
    rw [credentialedUrl, hfind] at h
    cases h
  | some scheme =>
    have hscheme : scheme ∈ urlSchemes := List.mem_of_find?_eq_some hfind
    have hprefixed : scheme.isPrefixOf text = true :=
      List.find?_some (p := fun other : List Char => other.isPrefixOf text) hfind
    obtain ⟨rest, rfl⟩ := List.isPrefixOf_iff_prefix.mp hprefixed
    rw [credentialedUrl_scheme hscheme] at h
    cases h
    exact ⟨scheme, hscheme, rest, rfl, rfl, rfl⟩

theorem takesRuns_credentialedUrl : TakesRuns credentialedUrl := by
  intro text output length h
  obtain ⟨scheme, hscheme, rest, -, -, rfl⟩ := credentialedUrl_eq_some h
  have hpos := List.length_pos_iff.mpr (scheme_ne_nil hscheme)
  rw [List.length_append]
  omega

/-! ## The userinfo -/

theorem exists_last_at (h : '@' ∈ run) : ∃ front back, run = front ++ '@' :: back ∧ '@' ∉ back := by
  obtain ⟨back, front, hsplit, hback⟩ := List.eq_append_cons_of_mem (List.mem_reverse.mpr h)
  refine ⟨front.reverse, back.reverse, ?_, fun hmem => hback (List.mem_reverse.mp hmem)⟩
  rw [← List.reverse_reverse run, hsplit]
  simp

theorem takeWhile_userinfo (h : IsUserinfo userinfo) :
    (userinfo ++ '@' :: run).takeWhile (· ≠ '/') = userinfo ++ '@' :: run.takeWhile (· ≠ '/') := by
  have hslash : ('@' :: run).takeWhile (fun c => decide (c ≠ '/')) =
      '@' :: run.takeWhile (fun c => decide (c ≠ '/')) :=
    List.takeWhile_cons_of_pos (by decide)
  rw [List.takeWhile_append_of_pos, hslash]
  intro c hc
  simp [(h c hc).2]

theorem takeWhile_append_of_mem {p : Char → Bool} {c : Char} (hc : c ∈ before) (h : p c = false) :
    (before ++ rest).takeWhile p = before.takeWhile p := by
  rw [List.takeWhile_append, if_neg]
  intro hlength
  have hall : before.takeWhile p = before :=
    (List.takeWhile_prefix p).eq_of_length hlength
  have hkept := List.mem_takeWhile_imp (hall.symm ▸ hc)
  rw [h] at hkept
  cases hkept

theorem drop_userinfo (h : IsUserinfo userinfo) :
    (userinfo ++ '@' :: run).drop ((userinfo ++ '@' :: run).takeWhile (· ≠ '/')).length =
      run.drop (run.takeWhile (· ≠ '/')).length := by
  rw [takeWhile_userinfo h]
  simp

/-- The userinfo is redacted, and all that is behind it is kept. -/
theorem hideUserinfo_eq (h : IsUserinfo userinfo) (hat : '@' ∉ run.takeWhile (· ≠ '/')) :
    hideUserinfo (userinfo ++ '@' :: run) = redacted ++ '@' :: run := by
  have hlast : rsplitOnce '@' ((userinfo ++ '@' :: run).takeWhile (· ≠ '/')) =
      some (userinfo, run.takeWhile (· ≠ '/')) := by
    rw [takeWhile_userinfo h]
    exact rsplitOnce_append _ hat
  have hrest : run.takeWhile (· ≠ '/') ++ run.drop (run.takeWhile (· ≠ '/')).length = run :=
    List.prefix_iff_eq_append.mp (List.takeWhile_prefix _)
  rw [hideUserinfo, hlast]
  dsimp only
  rw [drop_userinfo h, List.cons_append, hrest]

/-- What is written does not depend on the userinfo. -/
theorem hideUserinfo_congr {other : List Char} (h : IsUserinfo userinfo)
    (hother : IsUserinfo other) :
    hideUserinfo (userinfo ++ '@' :: run) = hideUserinfo (other ++ '@' :: run) := by
  by_cases hat : '@' ∈ run.takeWhile (· ≠ '/')
  · obtain ⟨front, back, hsplit, hback⟩ := exists_last_at hat
    have hlast {info : List Char} (hinfo : IsUserinfo info) :
        rsplitOnce '@' ((info ++ '@' :: run).takeWhile (· ≠ '/')) =
          some (info ++ '@' :: front, back) := by
      rw [takeWhile_userinfo hinfo, hsplit, ← List.cons_append, ← List.append_assoc]
      exact rsplitOnce_append _ hback
    rw [hideUserinfo, hideUserinfo, hlast h, hlast hother]
    dsimp only
    rw [drop_userinfo h, drop_userinfo hother]
  · rw [hideUserinfo_eq h hat, hideUserinfo_eq hother hat]

/-! ## The pass -/

/-- Behind a part of the text, a URL changes nothing of the schemes that begin in that part. -/
theorem find?_before {front : List Char} (hscheme : scheme ∈ urlSchemes) (hne : front ≠ []) :
    (urlSchemes.find? fun other => other.isPrefixOf (front ++ (scheme ++ rest))) =
      urlSchemes.find? fun other => other.isPrefixOf front := by
  rw [← List.head?_filter, ← List.head?_filter]
  apply congrArg List.head?
  apply List.filter_congr
  intro other hother
  rw [Bool.eq_iff_iff, List.isPrefixOf_iff_prefix, List.isPrefixOf_iff_prefix]
  constructor
  · intro hprefixed
    by_cases hshort : front.length < other.length
    · exact absurd hprefixed (not_scheme_within hscheme hother hne hshort)
    · exact List.prefix_of_prefix_length_le hprefixed (List.prefix_append _ _)
        (Nat.le_of_not_lt hshort)
  · exact fun hprefixed => hprefixed.trans (List.prefix_append _ _)

theorem endsWithin_scheme (hscheme : scheme ∈ urlSchemes) (hends : UrlsEnd before) :
    EndsWithin credentialedUrl before (scheme ++ rest) := by
  rintro front ⟨earlier, rfl⟩ hne
  unfold credentialedUrl
  rw [find?_before hscheme hne]
  cases hfind : urlSchemes.find? fun other => other.isPrefixOf front with
  | none => exact ⟨rfl, fun _ _ h => by cases h⟩
  | some other =>
    have hother : other ∈ urlSchemes := List.mem_of_find?_eq_some hfind
    have hprefixed : other.isPrefixOf front = true :=
      List.find?_some (p := fun scheme : List Char => scheme.isPrefixOf front) hfind
    obtain ⟨behind, rfl⟩ := List.isPrefixOf_iff_prefix.mp hprefixed
    obtain ⟨c, hc, hend⟩ := hends other hother earlier behind rfl
    have hrun : (other ++ behind ++ (scheme ++ rest)).takeWhile (fun c => !endsUrl c) =
        (other ++ behind).takeWhile (fun c => !endsUrl c) := by
      apply takeWhile_append_of_mem (List.mem_append_right other hc)
      simp [hend]
    rw [Option.map_some, Option.map_some]
    dsimp only
    rw [hrun]
    refine ⟨rfl, ?_⟩
    intro output length h
    cases h
    exact (List.takeWhile_prefix _).length_le

/-- The pass over a text with a URL that it reaches. -/
theorem redactCredentialedUrls_url (hscheme : scheme ∈ urlSchemes) (hends : UrlsEnd before) :
    redactCredentialedUrls (before ++ (scheme ++ rest)) =
      redactCredentialedUrls before ++ (scheme ++ hideUserinfo (urlRun rest)) ++
        redactCredentialedUrls (rest.drop (urlRun rest).length) := by
  have hne : scheme ++ rest ≠ [] := fun h => scheme_ne_nil hscheme (List.append_eq_nil_iff.mp h).1
  have hstep := credentialedUrl_scheme hscheme rest
  unfold redactCredentialedUrls
  rw [rewrite_append takesRuns_credentialedUrl (endsWithin_scheme hscheme hends),
    rewrite_taken hne hstep (takesRuns_credentialedUrl _ _ _ hstep), List.length_append,
    ← List.drop_drop, List.drop_left, ← List.append_assoc]

/-! ## The pass once more -/

theorem marksAt_credentialedUrl : MarksAt '<' credentialedUrl := by
  intro text output length hstep
  obtain ⟨scheme, hscheme, rest, rfl, rfl, rfl⟩ := credentialedUrl_eq_some hstep
  have htake : (scheme ++ rest).take (scheme ++ urlRun rest).length = scheme ++ urlRun rest :=
    (List.prefix_iff_eq_take.mp
      ((List.prefix_append_right_inj scheme).mpr (List.takeWhile_prefix _))).symm
  rw [htake]
  unfold hideUserinfo
  cases rsplitOnce '@' ((urlRun rest).takeWhile (· ≠ '/')) with
  | none => exact Or.inl rfl
  | some parts => exact Or.inr ⟨scheme, _, rfl, List.prefix_append _ _⟩

theorem takeWhile_behind (p : Char → Bool) (text : List Char) :
    (text.drop (text.takeWhile p).length).takeWhile p = [] := by
  induction text with
  | nil => rfl
  | cons c rest ih =>
    cases h : p c with
    | true => simpa [h] using ih
    | false => simp [h]

theorem hideUserinfo_of_notMem (h : '@' ∉ run.takeWhile (· ≠ '/')) : hideUserinfo run = run := by
  rw [hideUserinfo, rsplitOnce_of_notMem h]

theorem hideUserinfo_of_mem (h : '@' ∈ run.takeWhile (· ≠ '/')) :
    ∃ front host, run.takeWhile (· ≠ '/') = front ++ '@' :: host ∧ '@' ∉ host ∧
      hideUserinfo run =
        redacted ++ '@' :: (host ++ run.drop (run.takeWhile (· ≠ '/')).length) := by
  obtain ⟨front, host, hsplit, hhost⟩ := exists_last_at h
  have hlast : rsplitOnce '@' (run.takeWhile (· ≠ '/')) = some (front, host) := by
    rw [hsplit]
    exact rsplitOnce_append _ hhost
  refine ⟨front, host, hsplit, hhost, ?_⟩
  rw [hideUserinfo, hlast]
  rfl

/-- A redacted userinfo is redacted to itself. -/
theorem hideUserinfo_hideUserinfo (run : List Char) :
    hideUserinfo (hideUserinfo run) = hideUserinfo run := by
  by_cases hat : '@' ∈ run.takeWhile (· ≠ '/')
  · obtain ⟨front, host, hsplit, hhost, hone⟩ := hideUserinfo_of_mem hat
    rw [hone]
    apply hideUserinfo_eq isUserinfo_redacted
    have hslash : ∀ c ∈ host, decide (c ≠ '/') = true := by
      intro c hc
      have hmem : c ∈ run.takeWhile (fun c => decide (c ≠ '/')) := by
        rw [hsplit]
        exact List.mem_append_right _ (List.mem_cons_of_mem _ hc)
      exact List.mem_takeWhile_imp (p := fun c => decide (c ≠ '/')) hmem
    rw [List.takeWhile_append_of_pos hslash, takeWhile_behind, List.append_nil]
    exact hhost
  · rw [hideUserinfo_of_notMem hat, hideUserinfo_of_notMem hat]

theorem runs_of_urlRun : ∀ c ∈ urlRun rest, endsUrl c = false := by
  intro c hc
  simpa using List.mem_takeWhile_imp (p := fun c => !endsUrl c) hc

theorem runs_of_hideUserinfo (h : ∀ c ∈ run, endsUrl c = false) :
    ∀ c ∈ hideUserinfo run, endsUrl c = false := by
  by_cases hat : '@' ∈ run.takeWhile (· ≠ '/')
  · obtain ⟨front, host, hsplit, -, hone⟩ := hideUserinfo_of_mem hat
    have hhost : ∀ c ∈ host, c ∈ run := by
      intro c hc
      have hmem : c ∈ run.takeWhile (· ≠ '/') := by
        rw [hsplit]
        exact List.mem_append_right _ (List.mem_cons_of_mem _ hc)
      exact (List.takeWhile_prefix _).subset hmem
    rw [hone]
    intro c hc
    rcases List.mem_append.mp hc with hc | hc
    · exact (isUserinfo_redacted c hc).1
    · rcases List.mem_cons.mp hc with rfl | hc
      · decide
      · rcases List.mem_append.mp hc with hc | hc
        · exact h c (hhost c hc)
        · exact h c (List.mem_of_mem_drop hc)
  · rw [hideUserinfo_of_notMem hat]
    exact h

/-- A character that ends a URL begins none. -/
theorem credentialedUrl_of_ends {c : Char} (h : endsUrl c = true) (rest : List Char) :
    credentialedUrl (c :: rest) = none := by
  cases hstep : credentialedUrl (c :: rest) with
  | none => rfl
  | some taken =>
    obtain ⟨scheme, hscheme, behind, htext, -, -⟩ := credentialedUrl_eq_some hstep
    cases scheme with
    | nil => exact absurd rfl (scheme_ne_nil hscheme)
    | cons a scheme =>
      have hhead : c = a := (List.cons.inj htext).1
      have hrun := runs_of_scheme hscheme a (List.mem_cons_self ..)
      rw [← hhead, h] at hrun
      cases hrun

/-- Behind a URL the text has ended, or goes on with the character that ends it. -/
theorem urlRun_behind (rest : List Char) :
    urlRun (redactCredentialedUrls (rest.drop (urlRun rest).length)) = [] := by
  have hempty : urlRun (rest.drop (urlRun rest).length) = [] := takeWhile_behind _ rest
  cases hbehind : rest.drop (urlRun rest).length with
  | nil => rfl
  | cons c behind =>
    have hend : endsUrl c = true := by
      rw [hbehind] at hempty
      by_contra hrun
      simp [urlRun, hrun] at hempty
    have hkept : redactCredentialedUrls (c :: behind) = c :: redactCredentialedUrls behind :=
      rewrite_kept (credentialedUrl_of_ends hend behind)
    rw [hkept]
    simp [urlRun, hend]

theorem redactCredentialedUrls_taken (hscheme : scheme ∈ urlSchemes) (rest : List Char) :
    redactCredentialedUrls (scheme ++ rest) = scheme ++ hideUserinfo (urlRun rest) ++
      redactCredentialedUrls (rest.drop (urlRun rest).length) := by
  have hends : UrlsEnd [] := urlsEnd_of_short (by decide)
  exact redactCredentialedUrls_url hscheme hends

theorem mark_not_in_scheme (h : scheme ∈ urlSchemes) : '<' ∉ scheme := by
  have hall : (urlSchemes.all fun scheme => scheme.all fun c => c ≠ '<') = true := by decide
  intro hmem
  simpa using List.all_eq_true.mp (List.all_eq_true.mp hall scheme h) '<' hmem

/-- A second pass finds nothing to redact. -/
theorem redactCredentialedUrls_idem (text : List Char) :
    redactCredentialedUrls (redactCredentialedUrls text) = redactCredentialedUrls text := by
  induction hlength : text.length using Nat.strong_induction_on generalizing text with
  | h n ih =>
    subst hlength
    cases text with
    | nil => rfl
    | cons c rest =>
      cases hstep : credentialedUrl (c :: rest) with
      | none =>
        have hone : redactCredentialedUrls (c :: rest) = c :: redactCredentialedUrls rest :=
          rewrite_kept hstep
        -- a scheme of the output is one of the text
        have hnone : credentialedUrl (c :: redactCredentialedUrls rest) = none := by
          cases hnext : credentialedUrl (c :: redactCredentialedUrls rest) with
          | none => rfl
          | some taken =>
            obtain ⟨scheme, hscheme, behind, htext, -, -⟩ := credentialedUrl_eq_some hnext
            have hword : scheme <+: rewrite credentialedUrl (c :: rest) :=
              ⟨behind, htext.symm.trans hone.symm⟩
            obtain ⟨more, hmore⟩ := isPrefix_of_rewrite takesRuns_credentialedUrl
              marksAt_credentialedUrl (mark_not_in_scheme hscheme) hword
            rw [← hmore, credentialedUrl_scheme hscheme] at hstep
            cases hstep
        rw [hone]
        calc
          redactCredentialedUrls (c :: redactCredentialedUrls rest)
              = c :: redactCredentialedUrls (redactCredentialedUrls rest) :=
            rewrite_kept hnone
          _ = c :: redactCredentialedUrls rest := by rw [ih _ (by simp) rest rfl]
      | some taken =>
        obtain ⟨scheme, hscheme, behind, htext, -, -⟩ := credentialedUrl_eq_some hstep
        have hrun : urlRun (hideUserinfo (urlRun behind) ++
            redactCredentialedUrls (behind.drop (urlRun behind).length)) =
              hideUserinfo (urlRun behind) := by
          rw [urlRun_append (runs_of_hideUserinfo runs_of_urlRun), urlRun_behind, List.append_nil]
        have hshort : (behind.drop (urlRun behind).length).length < (c :: rest).length := by
          have hpos := List.length_pos_iff.mpr (scheme_ne_nil hscheme)
          rw [htext, List.length_append, List.length_drop]
          omega
        rw [htext, redactCredentialedUrls_taken hscheme, List.append_assoc,
          redactCredentialedUrls_taken hscheme, hrun, hideUserinfo_hideUserinfo,
          List.drop_left, ih _ hshort _ rfl]
        simp

/-- The run of a URL with a userinfo. -/
theorem urlRun_userinfo (h : IsUserinfo userinfo) :
    urlRun (userinfo ++ '@' :: rest) = userinfo ++ '@' :: urlRun rest := by
  rw [urlRun_append fun c hc => (h c hc).1]
  apply congrArg (userinfo ++ ·)
  exact List.takeWhile_cons_of_pos (by decide)

theorem redactCredentialedUrls_userinfo (hscheme : scheme ∈ urlSchemes) (hends : UrlsEnd before)
    {other : List Char} (h : IsUserinfo userinfo) (hother : IsUserinfo other) :
    redactCredentialedUrls (before ++ (scheme ++ (userinfo ++ '@' :: rest))) =
      redactCredentialedUrls (before ++ (scheme ++ (other ++ '@' :: rest))) := by
  have hbehind {info : List Char} (hinfo : IsUserinfo info) :
      (info ++ '@' :: rest).drop (urlRun (info ++ '@' :: rest)).length =
        rest.drop (urlRun rest).length := by
    rw [urlRun_userinfo hinfo]
    simp
  rw [redactCredentialedUrls_url hscheme hends, redactCredentialedUrls_url hscheme hends, hbehind h,
    hbehind hother, urlRun_userinfo h, urlRun_userinfo hother, hideUserinfo_congr h hother]

end

/-- What a log line shows does not depend on the userinfo of a URL: two texts that differ in
nothing else are redacted to the same text, if every URL in front of it has ended and the userinfo
has no character at which the pass stops reading it. -/
theorem redactText_userinfo (highEntropy : List Char → Bool) (redactor : LogRedactor)
    (before scheme userinfo other rest : List Char) (hscheme : scheme ∈ urlSchemes)
    (hends : UrlsEnd before) (h : IsUserinfo userinfo) (hother : IsUserinfo other) :
    redactor.redactText highEntropy (before ++ (scheme ++ (userinfo ++ '@' :: rest))) =
      redactor.redactText highEntropy (before ++ (scheme ++ (other ++ '@' :: rest))) := by
  unfold LogRedactor.redactText
  rw [redactCredentialedUrls_userinfo hscheme hends h hother]

theorem redactText_userinfo_demo :
    LogRedactor.redactText (fun _ => true) {} "git https://user:pw@host/x".toList =
      LogRedactor.redactText (fun _ => true) {} "git https://ghp_1@host/x".toList :=
  redactText_userinfo (fun _ => true) {} "git ".toList "https://".toList "user:pw".toList
    "ghp_1".toList "host/x".toList (by decide) (urlsEnd_of_short (by decide))
    (isUserinfo_of_all (by decide)) (isUserinfo_of_all (by decide))

end DevRelay.Logging
