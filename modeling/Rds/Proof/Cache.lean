import Rds.Lib.FillOnce
import Rds.Spec.RepoMetadata

/-!
# Whose metadata the cache holds

The metadata directories are a store that keeps what it got first (`locateOne_cache`), the
directory of a repository being its key. The directory is made from the name alone, so
an entry is right exactly if the first successful download into its directory came from
the same urls: `cache_belongs_iff`.
-/

namespace Rds

open FillOnce

/-- The directory of a repository's metadata. -/
def dirOf (rd : SsdsRepoInfo × Download) : Dir := resolvePath (fullPathToMetadata rd.1.name)

/-- The metadata a download for the repository would bring. -/
def fetched (rd : SsdsRepoInfo × Download) : Option Metadata :=
  match urlOption rd.1, rd.2 with
  | some origin, some (filelists, primary) => some { origin, filelists, primary }
  | _, _ => none

theorem fetched_origin {rd : SsdsRepoInfo × Download} {md : Metadata} (h : fetched rd = some md) :
    urlOption rd.1 = some md.origin := by
  unfold fetched at h
  split at h
  · rename_i ho _; cases h; exact ho
  · cases h

/-! ## One repository -/

theorem downloadRepoMetadataByUrl_eq (cache : Cache) (rd : SsdsRepoInfo × Download)
    (list : List SsdsMetadataFilesLoc) :
    downloadRepoMetadataByUrl cache rd.1 rd.2 list =
      match fetched rd with
      | some md => (Function.update cache (dirOf rd) (some md),
          list ++ [metadataLoc (fullPathToMetadata rd.1.name) md rd.1])
      | none => (cache, list) := by
  unfold downloadRepoMetadataByUrl fetched
  cases urlOption rd.1 with
  | none => rfl
  | some origin =>
    cases rd.2 with
    | none => rfl
    | some files => rfl

/-- A directory that holds something is used. -/
theorem locateOne_known {st : Cache × List SsdsMetadataFilesLoc} {rd : SsdsRepoInfo × Download}
    {md : Metadata} (h : st.1 (dirOf rd) = some md) :
    locateOne st rd = (st.1, st.2 ++ [metadataLoc (fullPathToMetadata rd.1.name) md rd.1]) := by
  have hdir : st.1 (resolvePath (fullPathToMetadata rd.1.name)) = some md := h
  unfold locateOne localRepoMetadata
  simp only [hdir]

/-- Into any other one the metadata is downloaded. -/
theorem locateOne_unknown {st : Cache × List SsdsMetadataFilesLoc} {rd : SsdsRepoInfo × Download}
    (h : st.1 (dirOf rd) = none) : locateOne st rd =
      match fetched rd with
      | some md => (Function.update st.1 (dirOf rd) (some md),
          st.2 ++ [metadataLoc (fullPathToMetadata rd.1.name) md rd.1])
      | none => st := by
  have hdir : st.1 (resolvePath (fullPathToMetadata rd.1.name)) = none := h
  unfold locateOne localRepoMetadata
  simp only [hdir, downloadRepoMetadataByUrl_eq]

/-- **The directories are a fill-once store.** -/
theorem locateOne_cache (st : Cache × List SsdsMetadataFilesLoc) (rd : SsdsRepoInfo × Download) :
    (locateOne st rd).1 = serve st.1 (dirOf rd, fetched rd) := by
  unfold serve
  cases hc : st.1 (dirOf rd) with
  | some md => rw [locateOne_known hc]
  | none =>
    rw [locateOne_unknown hc]
    cases fetched rd with
    | none => exact (Function.update_eq_self_iff.2 hc.symm).symm
    | some md => rfl

/-- The entry that is added says what the directory then holds. -/
theorem locateOne_list (st : Cache × List SsdsMetadataFilesLoc) (rd : SsdsRepoInfo × Download) :
    (locateOne st rd).2 = st.2 ++ ((locateOne st rd).1 (dirOf rd)).toList.map fun md =>
      metadataLoc (fullPathToMetadata rd.1.name) md rd.1 := by
  cases hc : st.1 (dirOf rd) with
  | some md =>
    rw [locateOne_known hc]
    simp [hc]
  | none =>
    rw [locateOne_unknown hc]
    cases fetched rd with
    | none => simp [hc]
    | some md => simp

/-- **The entry belongs to its repository**: it points to metadata downloaded from the urls
of that repository. -/
def OwnEntry (st : Cache × List SsdsMetadataFilesLoc) (rd : SsdsRepoInfo × Download) : Prop :=
  ∀ e, (locateOne st rd).2 = st.2 ++ [e] →
    ∃ md, (locateOne st rd).1 (resolvePath e.repomd) = some md ∧ e.filelists = md.filelists ∧
      e.primary = md.primary ∧ urlOption rd.1 = some md.origin

theorem ownEntry_iff {st : Cache × List SsdsMetadataFilesLoc} {rd : SsdsRepoInfo × Download} :
    OwnEntry st rd ↔
      ∀ md, (locateOne st rd).1 (dirOf rd) = some md → urlOption rd.1 = some md.origin := by
  have hlist := locateOne_list st rd
  constructor
  · intro h md hmd
    have hadd : (locateOne st rd).2 =
        st.2 ++ [metadataLoc (fullPathToMetadata rd.1.name) md rd.1] := by
      rw [hlist, hmd]; rfl
    obtain ⟨md', hmd', -, -, ho⟩ := h _ hadd
    have hdir : (locateOne st rd).1 (dirOf rd) = some md' := hmd'
    rw [hmd] at hdir
    cases hdir
    exact ho
  · intro h e he
    cases hmd : (locateOne st rd).1 (dirOf rd) with
    -- a directory that holds nothing adds no entry
    | none =>
      rw [hlist, hmd] at he
      have hlen := congrArg List.length he
      simp at hlen
    | some md =>
      have hentry : e = metadataLoc (fullPathToMetadata rd.1.name) md rd.1 := by
        rw [hlist, hmd] at he
        have := List.append_cancel_left he
        simpa using this.symm
      subst hentry
      exact ⟨md, hmd, rfl, rfl, h md hmd⟩

/-! ## Requests, one after the other -/

/-- The cache after some requests, from an empty one. -/
def cacheAfter (history : List (List (SsdsRepoInfo × Download))) : Cache :=
  history.foldl (fun c repos => (ssdsLocateRepoMetadata c repos).1) fun _ => none

/-- **Cached metadata belongs to the repository asked for**, in every request of a history
and for every repository of that request. -/
def CacheBelongs (history : List (List (SsdsRepoInfo × Download))) : Prop :=
  ∀ earlier repos later l rd r, history = earlier ++ repos :: later → repos = l ++ rd :: r →
    OwnEntry (l.foldl locateOne (cacheAfter earlier, [])) rd

/-- **One source for each directory**: a repository asked for has the urls of the first
successful download into its directory. -/
def OneSource (repos : List (SsdsRepoInfo × Download)) : Prop :=
  ∀ l a m b r, repos = l ++ a :: (m ++ b :: r) → dirOf a = dirOf b → fetched a ≠ none →
    (∀ x ∈ l, dirOf x = dirOf a → fetched x = none) → urlOption b.1 = urlOption a.1

/-- The repositories as requests to the store. -/
def asRequests (repos : List (SsdsRepoInfo × Download)) : List (Dir × Option Metadata) :=
  repos.map fun rd => (dirOf rd, fetched rd)

theorem foldl_locateOne_cache (repos : List (SsdsRepoInfo × Download)) :
    ∀ st : Cache × List SsdsMetadataFilesLoc,
      (repos.foldl locateOne st).1 = after st.1 (asRequests repos) := by
  induction repos with
  | nil => intro st; rfl
  | cons rd repos ih =>
    intro st
    rw [List.foldl_cons, ih, locateOne_cache]
    rfl

/-- Only the order of the repositories matters, not how they are split into requests. -/
theorem cacheAfter_eq (history : List (List (SsdsRepoInfo × Download))) :
    cacheAfter history = after (fun _ => none) (asRequests history.flatten) := by
  have hfold : ∀ c : Cache, history.foldl (fun c repos => (ssdsLocateRepoMetadata c repos).1) c =
      after c (asRequests history.flatten) := by
    induction history with
    | nil => intro c; rfl
    | cons repos history ih =>
      intro c
      have hmap : asRequests (repos :: history).flatten =
          asRequests repos ++ asRequests history.flatten := by simp [asRequests]
      rw [List.foldl_cons, ih, hmap, after_append, ssdsLocateRepoMetadata, foldl_locateOne_cache]
  exact hfold _

/-- What the directory of a repository holds once it has been located after `l`. -/
theorem located_iff {l : List (SsdsRepoInfo × Download)} {rd : SsdsRepoInfo × Download}
    {st : Cache × List SsdsMetadataFilesLoc} (hst : st.1 = after (fun _ => none) (asRequests l))
    {md : Metadata} :
    (locateOne st rd).1 (dirOf rd) = some md ↔ ∃ p a q, l ++ [rd] = p ++ a :: q ∧
      dirOf a = dirOf rd ∧ fetched a = some md ∧ ∀ x ∈ p, dirOf x = dirOf rd → fetched x = none := by
  have hafter : (locateOne st rd).1 = after (fun _ => none) (asRequests (l ++ [rd])) := by
    have hmap : asRequests (l ++ [rd]) = asRequests l ++ [(dirOf rd, fetched rd)] := by
      simp [asRequests]
    rw [locateOne_cache, hst, hmap, after_append]
    rfl
  rw [hafter, after_eq_some_iff]
  constructor
  · rintro ⟨p, a, q, hsplit, ha, hv, hp⟩
    obtain ⟨p', t, ht, rfl, hq⟩ := List.map_eq_append_iff.1 hsplit
    obtain ⟨a', q', rfl, rfl, rfl⟩ := List.map_eq_cons_iff.1 hq
    refine ⟨p', a', q', ht, ha, hv, fun x hx hdir => ?_⟩
    exact hp (dirOf x, fetched x) (List.mem_map_of_mem hx) hdir
  · rintro ⟨p, a, q, hsplit, ha, hv, hp⟩
    refine ⟨asRequests p, (dirOf a, fetched a), asRequests q, ?_, ha, hv, ?_⟩
    · rw [hsplit]; simp [asRequests]
    · intro x hx
      obtain ⟨y, hy, rfl⟩ := List.mem_map.1 hx
      exact hp y hy

/-- A place in the repositories of a history is a place in one of its requests. -/
theorem exists_request {history : List (List (SsdsRepoInfo × Download))} :
    ∀ {l r : List (SsdsRepoInfo × Download)} {b : SsdsRepoInfo × Download},
      history.flatten = l ++ b :: r → ∃ earlier repos later p q,
        history = earlier ++ repos :: later ∧ repos = p ++ b :: q ∧ l = earlier.flatten ++ p := by
  induction history with
  | nil =>
    intro l r b h
    have hlen := congrArg List.length h
    simp at hlen
  | cons repos history ih =>
    intro l r b h
    rw [List.flatten_cons, List.append_eq_append_iff] at h
    -- the place is behind the first request, or in it
    rcases h with ⟨l', rfl, h⟩ | ⟨c, hrepos, h⟩
    · obtain ⟨earlier, x, later, p, q, rfl, hx, rfl⟩ := ih h
      exact ⟨repos :: earlier, x, later, p, q, rfl, hx, by simp⟩
    · cases c with
      | nil =>
        obtain ⟨earlier, x, later, p, q, rfl, hx, hl⟩ := ih (l := []) h.symm
        refine ⟨repos :: earlier, x, later, p, q, rfl, hx, ?_⟩
        rw [List.flatten_cons, List.append_assoc, ← hl, hrepos]
        simp
      | cons d c =>
        rw [List.cons_append, List.cons.injEq] at h
        exact ⟨[], repos, history, l, c, rfl, by rw [hrepos, h.1], rfl⟩

/-- The cache when a request has come to a repository. -/
theorem located_state (earlier : List (List (SsdsRepoInfo × Download)))
    (l : List (SsdsRepoInfo × Download)) : (l.foldl locateOne (cacheAfter earlier, [])).1 =
      after (fun _ => none) (asRequests (earlier.flatten ++ l)) := by
  have hmap : asRequests (earlier.flatten ++ l) = asRequests earlier.flatten ++ asRequests l := by
    simp [asRequests]
  rw [foldl_locateOne_cache, cacheAfter_eq, hmap, after_append]

/-- A history in which every entry belongs to its repository has one source for each
directory. -/
theorem CacheBelongs.oneSource {history : List (List (SsdsRepoInfo × Download))}
    (h : CacheBelongs history) : OneSource history.flatten := by
  intro l a m b r hsplit hdir ha hl
  obtain ⟨md, hmd⟩ := Option.ne_none_iff_exists'.1 ha
  -- the request that `b` is in, and what its directory holds then
  have hflat : history.flatten = (l ++ a :: m) ++ b :: r := by rw [hsplit]; simp
  obtain ⟨earlier, repos, later, p, q, hhist, hrepos, hbefore⟩ := exists_request hflat
  have hown := ownEntry_iff.1 (h earlier repos later p b q hhist hrepos) md
  have hheld : (locateOne (p.foldl locateOne (cacheAfter earlier, [])) b).1 (dirOf b) = some md :=
    (located_iff (located_state earlier p)).2 ⟨l, a, m ++ [b], by rw [← hbefore]; simp, hdir, hmd,
      fun x hx hx' => hl x hx (hx'.trans hdir.symm)⟩
  rw [hown hheld, fetched_origin hmd]

/-- **When cached metadata belongs to the repository asked for.** -/
theorem cache_belongs_iff (history : List (List (SsdsRepoInfo × Download))) :
    CacheBelongs history ↔ OneSource history.flatten := by
  refine ⟨CacheBelongs.oneSource, fun h earlier repos later l rd r hhist hrepos => ?_⟩
  rw [ownEntry_iff]
  intro md hmd
  obtain ⟨p, a, q, hsplit, hdir, ha, hp⟩ := (located_iff (located_state earlier l)).1 hmd
  -- the metadata is the repository's own download, or an earlier one
  rcases List.append_eq_append_iff.1 hsplit with ⟨t, hpt, ht⟩ | ⟨t, ht, hat⟩
  · cases t with
    | nil =>
      rw [List.nil_append, List.cons.injEq] at ht
      rw [← ht.1] at ha
      exact fetched_origin ha
    | cons b t => simp at ht
  · cases t with
    | nil =>
      rw [List.nil_append, List.cons.injEq] at hat
      rw [hat.1] at ha
      exact fetched_origin ha
    | cons b t =>
      rw [List.cons_append, List.cons.injEq] at hat
      have hflat : history.flatten = p ++ a :: (t ++ rd :: (r ++ later.flatten)) := by
        have hfirst : history.flatten = (earlier.flatten ++ l) ++ rd :: (r ++ later.flatten) := by
          rw [hhist, hrepos]; simp
        rw [hfirst, ht, hat.1]; simp
      have hsame := h p a t rd (r ++ later.flatten) hflat hdir (by rw [ha]; simp)
        fun x hx hx' => hp x hx (hx'.trans hdir)
      rw [hsame, fetched_origin ha]

/-- Two repositories of one name from different urls, both downloads of which would succeed. -/
def namesakes : List (List (SsdsRepoInfo × Download)) :=
  [[({ urls := ["http://a/"], name := "fedora", type := 1 }, some ("filelists", "primary"))],
   [({ urls := ["http://b/"], name := "fedora", type := 1 }, some ("filelists", "primary"))]]

/-- **The second client gets the first one's metadata.** -/
theorem namesakes_mixed : ¬ CacheBelongs namesakes := by
  intro h
  have hsame := h.oneSource [] _ [] _ [] rfl rfl (by simp [fetched, urlOption]) (by simp)
  simp [urlOption] at hsame

end Rds
