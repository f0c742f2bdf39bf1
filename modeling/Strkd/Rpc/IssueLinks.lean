import Strkd.Lib.Uri
import Strkd.Rpc.Handlers

/-!
# Issue links

The link of a feedback report: whatever a client writes stays in the two parameters of its query.
The repository comes from the operator and is checked to be a plain slug; a dot segment is one too,
and then the link leads elsewhere (`issueLink_straight_iff`).
-/

namespace Strkd.Rpc

open Wallet

/-- `owner/name` with the characters of a GitHub slug and exactly one `/`. -/
def isValidRepoSlug (s : String) : Bool :=
  match s.toList.splitOn '/' with
  | [owner, name] =>
      owner ≠ [] ∧ name ≠ [] ∧
        ∀ c ∈ s.toList, c.isAlphanum = true ∨ c = '-' ∨ c = '_' ∨ c = '.' ∨ c = '/'
  | _ => false

/-- Override the repository that feedback links target, if it is a valid slug. -/
def Setup.withIssueRepo (S : Setup) (repo : String) : Setup :=
  if isValidRepoSlug repo then { S with issueRepo := repo } else S

/-! ## The report -/

def issueTitle (goal : String) (params : Json) : String :=
  "[agent-feedback] " ++ truncateChars (trim ((optParamStr params "title").getD goal)) 120

def issueBody (goal needed : String) (client : PairedClient) (params : Json) : String :=
  truncateChars (issueField "Goal" goal ++ issueField "Needed" needed ++
    String.join (optionalIssueFields.map fun (label, key) =>
      match optParamStr params key with
      | some v => issueField label v
      | none => "") ++
    "---\n_Filed via strkd `companion_reportIssue` by **" ++ client.label ++ "** (" ++ client.id ++
    "). strkd is alpha — review and edit before submitting, and remove anything sensitive._") 5000

def issueUrl (slug title body : String) : String :=
  "https://github.com/" ++ slug ++ "/issues/new?title=" ++ encodeQuery title ++ "&body=" ++
    encodeQuery body

/-- A report answers with the link, the title and the body. -/
theorem handleReportIssue_eq_ok {S : Setup} {client : PairedClient} {params resp : Json}
    (h : handleReportIssue S client params = .ok resp) : ∃ goal needed,
      resp.get? "url" = some (.str (issueUrl S.issueRepo (issueTitle goal params)
        (issueBody goal needed client params))) ∧
      resp.get? "title" = some (.str (issueTitle goal params)) ∧
      resp.get? "body" = some (.str (issueBody goal needed client params)) := by
  unfold handleReportIssue at h
  obtain ⟨goal, -, h⟩ := except_bind_eq_ok.1 h
  obtain ⟨needed, -, h⟩ := except_bind_eq_ok.1 h
  dsimp only at h
  split_ifs at h
  · cases h
  · rw [← Except.ok.inj h]
    exact ⟨goal, needed, rfl, rfl, rfl⟩

/-- A goal and a need that are not blank are all a report takes. -/
theorem exists_report (S : Setup) (client : PairedClient) {params : Json} (goal needed : String)
    (hgoal : paramStr params "goal" = .ok goal) (hneeded : paramStr params "needed" = .ok needed)
    (hblank : ¬ (trim goal = "" ∨ trim needed = "")) :
    ∃ resp, handleReportIssue S client params = .ok resp := by
  unfold handleReportIssue
  rw [hgoal, hneeded]
  simp only [bind, Except.bind]
  rw [if_neg hblank]
  exact ⟨_, rfl⟩

theorem length_truncateChars (s : String) {max : ℕ} (hmax : 0 < max) :
    (truncateChars s max).toList.length ≤ max := by
  unfold truncateChars
  split_ifs with h
  · exact h
  · have hdots : "…".toList.length = 1 := rfl
    rw [String.toList_append, String.toList_ofList, List.length_append, List.length_take, hdots]
    omega

/-! ## Percent-encoding -/

/-- The characters that stand for a byte. -/
def encodeByte (b : UInt8) : List Char :=
  let c := Char.ofNat b.toNat
  if c.isAlphanum ∨ c = '-' ∨ c = '_' ∨ c = '.' ∨ c = '~' then [c]
  else ['%', (Nat.digitChar (b.toNat / 16)).toUpper, (Nat.digitChar (b.toNat % 16)).toUpper]

theorem toList_encodeQuery (s : String) :
    (encodeQuery s).toList = s.toUTF8.toList.flatMap encodeByte := by
  rw [encodeQuery, String.toList_join, List.flatMap_map]
  refine List.flatMap_congr fun b _ => ?_
  unfold encodeByte
  dsimp only
  split_ifs
  · exact String.toList_singleton _
  · exact String.toList_ofList

theorem unreserved_bounds : ∀ n < 256, ((Char.ofNat n).isAlphanum ∨ Char.ofNat n = '-' ∨
    Char.ofNat n = '_' ∨ Char.ofNat n = '.' ∨ Char.ofNat n = '~') →
      Char.ofNat n ∉ ['%', '&', '=', '#'] ∧ (Char.ofNat n).toNat < 128 ∧
        (Char.ofNat n).toNat = n := by
  decide +kernel

theorem percentDecode_encodeByte (b : UInt8) (cs : List Char) :
    Uri.percentDecode (encodeByte b ++ cs) = (Uri.percentDecode cs).map (b :: ·) := by
  unfold encodeByte
  dsimp only
  split_ifs with h
  · obtain ⟨hmem, hlt, hnat⟩ := unreserved_bounds b.toNat b.toNat_lt h
    have hpercent : Char.ofNat b.toNat ≠ '%' := fun heq => hmem (heq ▸ List.mem_cons_self)
    rw [List.singleton_append, Uri.percentDecode_plain hpercent hlt, hnat, UInt8.ofNat_toNat]
  · exact Uri.percentDecode_byte b cs

theorem percentDecode_encodeBytes (bs : List UInt8) :
    Uri.percentDecode (bs.flatMap encodeByte) = some bs := by
  induction bs with
  | nil => rfl
  | cons b bs ih =>
      rw [List.flatMap_cons, percentDecode_encodeByte, ih]
      rfl

/-- An encoded text reads back, byte for byte. -/
theorem percentDecode_encodeQuery (s : String) :
    Uri.percentDecode (encodeQuery s).toList = some s.toUTF8.toList := by
  rw [toList_encodeQuery, percentDecode_encodeBytes]

theorem digitChar_toUpper_plain : ∀ d < 16, (Nat.digitChar d).toUpper ∉ ['&', '=', '#'] := by
  decide

theorem notMem_encodeQuery {c : Char} (hc : c ∈ ['&', '=', '#']) (s : String) :
    c ∉ (encodeQuery s).toList := by
  rw [toList_encodeQuery]
  intro h
  obtain ⟨b, -, hb⟩ := List.mem_flatMap.1 h
  have hlt := b.toNat_lt
  unfold encodeByte at hb
  dsimp only at hb
  split_ifs at hb with hplain
  · rw [List.mem_singleton.1 hb] at hc
    exact (unreserved_bounds b.toNat b.toNat_lt hplain).1 (List.mem_cons_of_mem _ hc)
  · simp only [List.mem_cons, List.not_mem_nil, or_false] at hb
    rcases hb with rfl | rfl | rfl
    · exact absurd hc (by decide)
    · exact digitChar_toUpper_plain (b.toNat / 16) (by omega) hc
    · exact digitChar_toUpper_plain (b.toNat % 16) (by omega) hc

/-! ## Where a link leads -/

/-- A link to the form for a new issue of a repository, with a title and a body. -/
structure Straight (slug title body : String) (u : Uri) : Prop where
  scheme : u.scheme = some "https".toList
  host : u.authority = some "github.com".toList
  path : ∃ owner name, slug.toList.splitOn '/' = [owner, name] ∧
    u.pathSegments = some [owner, name, "issues".toList, "new".toList]
  query : u.parameters = some [("title".toUTF8.toList, title.toUTF8.toList),
    ("body".toUTF8.toList, body.toUTF8.toList)]
  fragment : u.fragment = none

theorem slug_cases {slug : String} (h : isValidRepoSlug slug = true) : ∃ owner name,
    slug.toList = owner ++ '/' :: name ∧ '/' ∉ owner ∧ '/' ∉ name ∧
      ∀ c ∈ slug.toList, c ∉ ['?', '#'] := by
  unfold isValidRepoSlug at h
  split at h
  · rename_i owner name hsplit
    have hslug : slug.toList = owner ++ '/' :: name := by
      have hjoin : List.intercalate ['/'] (slug.toList.splitOn '/') = slug.toList :=
        List.intercalate_splitOn '/'
      rw [hsplit] at hjoin
      simpa [List.intercalate] using hjoin.symm
    have hnot : ∀ l ∈ [owner, name], '/' ∉ l := fun l hl =>
      Uri.notMem_of_mem_splitOn (hsplit ▸ hl)
    refine ⟨owner, name, hslug, hnot _ List.mem_cons_self,
      hnot _ (List.mem_cons_of_mem _ List.mem_cons_self), fun c hc hmem => ?_⟩
    have hall := (of_decide_eq_true h).2.2 c hc
    simp only [List.mem_cons, List.not_mem_nil, or_false] at hmem
    rcases hmem with rfl | rfl <;> revert hall <;> decide
  · cases h

def issueQuery (title body : String) : List Char :=
  "title".toList ++ '=' :: ((encodeQuery title).toList ++
    '&' :: ("body".toList ++ '=' :: (encodeQuery body).toList))

theorem parse_issueUrl {slug : String} (hslug : ∀ c ∈ slug.toList, c ∉ ['?', '#'])
    (title body : String) : Uri.parse (issueUrl slug title body).toList =
      ⟨some "https".toList, some "github.com".toList, '/' :: (slug.toList ++ "/issues/new".toList),
        some (issueQuery title body), none⟩ := by
  have hlist : (issueUrl slug title body).toList = "https".toList ++ ':' :: '/' :: '/' ::
      ("github.com".toList ++ '/' :: ((slug.toList ++ "/issues/new".toList) ++
        '?' :: issueQuery title body)) := by
    have hhost : "https://github.com/".toList =
        "https".toList ++ ':' :: '/' :: '/' :: ("github.com".toList ++ ['/']) := by simp
    have hform : "/issues/new?title=".toList =
        "/issues/new".toList ++ '?' :: ("title".toList ++ ['=']) := by simp
    have hand : "&body=".toList = '&' :: ("body".toList ++ ['=']) := by simp
    unfold issueUrl issueQuery
    simp only [String.toList_append, hhost, hform, hand, List.append_assoc, List.cons_append,
      List.nil_append]
  have hpath : ∀ c ∈ slug.toList ++ "/issues/new".toList, c ∉ ['?', '#'] := by
    intro c hc
    have hform : ∀ c ∈ "/issues/new".toList, c ∉ ['?', '#'] := by simp
    rcases List.mem_append.1 hc with hc | hc
    · exact hslug c hc
    · exact hform c hc
  have hquery : '#' ∉ issueQuery title body := by
    have htitle := notMem_encodeQuery (c := '#') (by decide) title
    have hbody := notMem_encodeQuery (c := '#') (by decide) body
    simp [issueQuery, htitle, hbody]
  rw [hlist]
  exact Uri.parse_eq (by decide) (by simp) (by simp) hpath hquery

theorem parameters_issueQuery {u : Uri} {title body : String}
    (h : u.query = some (issueQuery title body)) :
    u.parameters = some [("title".toUTF8.toList, title.toUTF8.toList),
      ("body".toUTF8.toList, body.toUTF8.toList)] := by
  have hsplit : (issueQuery title body).splitOn '&' =
      ["title".toList ++ '=' :: (encodeQuery title).toList,
        "body".toList ++ '=' :: (encodeQuery body).toList] := by
    have hfirst : '&' ∉ "title".toList ++ '=' :: (encodeQuery title).toList := by
      simp [notMem_encodeQuery (c := '&') (by decide) title]
    have hsecond : '&' ∉ "body".toList ++ '=' :: (encodeQuery body).toList := by
      simp [notMem_encodeQuery (c := '&') (by decide) body]
    have hshape : issueQuery title body = ("title".toList ++ '=' :: (encodeQuery title).toList) ++
        '&' :: ("body".toList ++ '=' :: (encodeQuery body).toList) := by
      simp [issueQuery]
    rw [hshape, List.splitOn_append_cons_self_of_not_mem hfirst, List.splitOn_eq_singleton hsecond]
  have htitle : Uri.percentDecode "title".toList = some "title".toUTF8.toList := by decide +kernel
  have hbody : Uri.percentDecode "body".toList = some "body".toUTF8.toList := by decide +kernel
  rw [Uri.parameters, h]
  simp only [bind, Option.bind_some, hsplit, List.mapM_cons, List.mapM_nil,
    Uri.parameter_eq "title".toList _ (by decide), Uri.parameter_eq "body".toList _ (by decide),
    htitle, hbody, percentDecode_encodeQuery]
  rfl

/-! ## Dot segments -/

/-- A slug with a dot segment. -/
def Dotted (slug : String) : Prop := ∃ s ∈ slug.toList.splitOn '/', s ∈ [['.'], ['.', '.']]

theorem splitOn_slug {slug : String} {owner name : List Char}
    (h : slug.toList = owner ++ '/' :: name) (howner : '/' ∉ owner) (hname : '/' ∉ name) :
    slug.toList.splitOn '/' = [owner, name] := by
  rw [h, List.splitOn_append_cons_self_of_not_mem howner, List.splitOn_eq_singleton hname]

theorem dotted_iff {slug : String} {owner name : List Char} (h : slug.toList = owner ++ '/' :: name)
    (howner : '/' ∉ owner) (hname : '/' ∉ name) :
    Dotted slug ↔ owner ∈ [['.'], ['.', '.']] ∨ name ∈ [['.'], ['.', '.']] := by
  rw [Dotted, splitOn_slug h howner hname]
  simp only [List.exists_mem_cons_iff, List.not_mem_nil, false_and, exists_false, or_false]

theorem pathSegments_eq {u : Uri} {owner name : List Char} (howner : '/' ∉ owner)
    (hname : '/' ∉ name) (h : u.path = '/' :: ((owner ++ '/' :: name) ++ "/issues/new".toList)) :
    u.pathSegments =
      some (Uri.removeDots [] [owner, name, "issues".toList, "new".toList]) := by
  have hsplit : u.path.splitOn '/' = [[], owner, name, "issues".toList, "new".toList] := by
    have hpath : u.path = [] ++ '/' :: (owner ++ '/' :: (name ++ '/' :: ("issues".toList ++
        '/' :: "new".toList))) := by
      rw [h]
      simp
    rw [hpath, List.splitOn_append_cons_self_of_not_mem List.not_mem_nil,
      List.splitOn_append_cons_self_of_not_mem howner,
      List.splitOn_append_cons_self_of_not_mem hname,
      List.splitOn_append_cons_self_of_not_mem (by simp), List.splitOn_eq_singleton (by simp)]
  rw [Uri.pathSegments, hsplit]

/-- Dot segments go, and only they. -/
theorem removeDots_issue (owner name : List Char) :
    Uri.removeDots [] [owner, name, "issues".toList, "new".toList] =
        [owner, name, "issues".toList, "new".toList] ↔
      ¬ (owner ∈ [['.'], ['.', '.']] ∨ name ∈ [['.'], ['.', '.']]) := by
  have hissues : "issues".toList ≠ ['.'] ∧ "issues".toList ≠ ['.', '.'] := by simp
  have hnew : "new".toList ≠ ['.'] ∧ "new".toList ≠ ['.', '.'] := by simp
  generalize "issues".toList = issues at hissues ⊢
  generalize "new".toList = new at hnew ⊢
  simp only [Uri.removeDots, List.mem_cons, List.not_mem_nil, or_false, if_neg hissues.1,
    if_neg hissues.2, if_neg hnew.1, if_neg hnew.2]
  split_ifs <;> simp_all

/-- The answer of a report with a link that leads straight to the form. -/
def StraightReport (slug : String) (resp : Json) : Prop :=
  ∃ url title body, resp.get? "url" = some (.str url) ∧ resp.get? "title" = some (.str title) ∧
    resp.get? "body" = some (.str body) ∧ title.toList.length ≤ 137 ∧ body.toList.length ≤ 5000 ∧
      Straight slug title body (Uri.parse url.toList)

theorem issueTitle_length (goal : String) (params : Json) :
    (issueTitle goal params).toList.length ≤ 137 := by
  have htag : "[agent-feedback] ".toList.length = 17 := rfl
  have hcut := length_truncateChars (trim ((optParamStr params "title").getD goal))
    (show 0 < 120 by decide)
  rw [issueTitle, String.toList_append, List.length_append, htag]
  omega

/-- A report to a valid slug leads straight to its form exactly when the slug has no dot segment. -/
theorem straightReport_iff {S : Setup} {client : PairedClient} {params resp : Json}
    (hslug : isValidRepoSlug S.issueRepo = true)
    (h : handleReportIssue S client params = .ok resp) :
    StraightReport S.issueRepo resp ↔ ¬ Dotted S.issueRepo := by
  obtain ⟨owner, name, heq, howner, hname, hplain⟩ := slug_cases hslug
  obtain ⟨goal, needed, hurl, htitle, hbody⟩ := handleReportIssue_eq_ok h
  rw [dotted_iff heq howner hname, ← removeDots_issue]
  have hparse := parse_issueUrl hplain (issueTitle goal params) (issueBody goal needed client params)
  have hsegments := pathSegments_eq howner hname (u := Uri.parse (issueUrl S.issueRepo
    (issueTitle goal params) (issueBody goal needed client params)).toList) (by rw [hparse, heq])
  constructor
  · rintro ⟨url, title, body, hurl', -, -, -, -, hstraight⟩
    obtain ⟨owner', name', heq', hpath⟩ := hstraight.path
    rw [Json.str.inj (Option.some.inj (hurl'.symm.trans hurl)), hsegments] at hpath
    obtain ⟨rfl, hrest⟩ := List.cons.inj (heq'.symm.trans (splitOn_slug heq howner hname))
    obtain ⟨rfl, -⟩ := List.cons.inj hrest
    exact Option.some.inj hpath
  · intro hdots
    refine ⟨_, _, _, hurl, htitle, hbody, issueTitle_length .., length_truncateChars _ (by decide),
      ?_⟩
    exact { scheme := by rw [hparse]
            host := by rw [hparse]
            path := ⟨owner, name, splitOn_slug heq howner hname, by rw [hsegments, hdots]⟩
            query := parameters_issueQuery (by rw [hparse])
            fragment := by rw [hparse] }

theorem isValidRepoSlug_iff {slug : String} {owner name : List Char}
    (h : slug.toList = owner ++ '/' :: name) (howner : '/' ∉ owner) (hname : '/' ∉ name) :
    isValidRepoSlug slug = true ↔ owner ≠ [] ∧ name ≠ [] ∧
      ∀ c ∈ slug.toList, c.isAlphanum = true ∨ c = '-' ∨ c = '_' ∨ c = '.' ∨ c = '/' := by
  rw [isValidRepoSlug, splitOn_slug h howner hname]
  exact decide_eq_true_iff

/-- The default repository. -/
theorem issueRepo_default : isValidRepoSlug "starknet-innovation/strkd" = true ∧
    ¬ Dotted "starknet-innovation/strkd" := by
  have hlist : "starknet-innovation/strkd".toList =
      "starknet-innovation".toList ++ '/' :: "strkd".toList := by simp
  refine ⟨(isValidRepoSlug_iff hlist (by simp) (by simp)).2 ⟨by simp, by simp, by simp⟩, ?_⟩
  rw [dotted_iff hlist (by simp) (by simp)]
  simp

theorem withIssueRepo_issueRepo {S : Setup} (repo : String)
    (hS : S.issueRepo = "starknet-innovation/strkd") :
    isValidRepoSlug (S.withIssueRepo repo).issueRepo = true ∧
      (Dotted (S.withIssueRepo repo).issueRepo ↔ isValidRepoSlug repo = true ∧ Dotted repo) := by
  by_cases hrepo : isValidRepoSlug repo = true
  · have hwith : (S.withIssueRepo repo).issueRepo = repo := by
      rw [Setup.withIssueRepo, if_pos hrepo]
    rw [hwith]
    exact ⟨hrepo, (and_iff_right hrepo).symm⟩
  · have hwith : (S.withIssueRepo repo).issueRepo = "starknet-innovation/strkd" := by
      rw [Setup.withIssueRepo, if_neg hrepo, hS]
    rw [hwith]
    exact ⟨issueRepo_default.1, fun hdots => absurd hdots issueRepo_default.2,
      fun h => absurd h.1 hrepo⟩

/-- The link of a report leads straight to the form of the accepted slug exactly when that slug has
no dot segment. -/
theorem issueLink_straight_iff {S : Setup} {repo : String} {client : PairedClient}
    {params resp : Json} (hS : S.issueRepo = "starknet-innovation/strkd")
    (h : handleReportIssue (S.withIssueRepo repo) client params = .ok resp) :
    StraightReport (S.withIssueRepo repo).issueRepo resp ↔
      ¬ (isValidRepoSlug repo = true ∧ Dotted repo) := by
  obtain ⟨hvalid, hdotted⟩ := withIssueRepo_issueRepo repo hS
  rw [straightReport_iff hvalid h, hdotted]

/-- A client with a label that looks like the end of a query. -/
def pushyClient : PairedClient :=
  { id := "c1", label := "bot&body=#", kind := .agent, tokenHash := "", grantedUntil := none }

def shortReport : Json := .obj [("goal", .str "a&title=b"), ("needed", .str "50%")]

theorem exists_shortReport (S : Setup) : ∃ resp,
    handleReportIssue S pushyClient shortReport = .ok resp :=
  exists_report S pushyClient "a&title=b" "50%" rfl rfl (by decide)

theorem issueLink_straight_shortReport : ∃ (S : Setup) (resp : Json),
    handleReportIssue (S.withIssueRepo "my-org/strkd") pushyClient shortReport = .ok resp ∧
      (StraightReport (S.withIssueRepo "my-org/strkd").issueRepo resp ↔
        ¬ (isValidRepoSlug "my-org/strkd" = true ∧ Dotted "my-org/strkd")) := by
  obtain ⟨resp, h⟩ := exists_shortReport (plainSetup.withIssueRepo "my-org/strkd")
  exact ⟨_, resp, h, issueLink_straight_iff rfl h⟩

/-- The slug `../..` is accepted, and its links lead to the form of no repository. -/
theorem issueLink_bent : ¬ ∀ (S : Setup) (repo : String) (client : PairedClient)
    (params resp : Json), S.issueRepo = "starknet-innovation/strkd" →
      handleReportIssue (S.withIssueRepo repo) client params = .ok resp →
        StraightReport (S.withIssueRepo repo).issueRepo resp := by
  intro hall
  have hlist : "../..".toList = ['.', '.'] ++ '/' :: ['.', '.'] := by decide
  have hvalid : isValidRepoSlug "../.." = true :=
    (isValidRepoSlug_iff hlist (by decide) (by decide)).2 ⟨by simp, by simp, by simp⟩
  let S : Setup := plainSetup
  have hrepo : (S.withIssueRepo "../..").issueRepo = "../.." := by
    rw [Setup.withIssueRepo, if_pos hvalid]
  obtain ⟨resp, h⟩ := exists_shortReport (S.withIssueRepo "../..")
  have hstraight := hall S "../.." pushyClient shortReport resp rfl h
  rw [straightReport_iff (by rw [hrepo]; exact hvalid) h, hrepo,
    dotted_iff hlist (by decide) (by decide)] at hstraight
  exact hstraight (Or.inl (by decide))

end Strkd.Rpc
