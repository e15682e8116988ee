import WeldingServer.Dashboard.Recordings
import WeldingServer.Dashboard.StreamVideo
import WeldingServer.Library.PercentEncoding

/-!
# From the list of recordings to a recording

`loadVideos` shows an item for each entry of `/api/videos`.  The item is a link to
`/api/video/` followed by the name as `encodeURIComponent` writes it, and `streamVideo` gets as
`filename` what the server's router decodes from that.  The router is not part of the program:
`RoutesVideos` says what is asked of it.

The name arrives as it was listed, so each item leads to the file it stands for
(`links_of_list`).  But the list has every entry that ends in `.mp4`, and `streamVideo` refuses
names with `..` or a backslash in them and answers 404 for a directory.  The names that
`stitchAndClean` gives are never refused (`recording_plays`).

The page gets the names as they are.  What becomes of markup in a name is not modelled.
-/

namespace WeldingServer.Dashboard

open Paths PercentEncoding Calendar

/-! ## The page -/

/-- The characters that `encodeURIComponent` leaves. -/
def unescaped (c : Char) : Bool :=
  c.isAlphanum || c ∈ ['-', '_', '.', '!', '~', '*', '\'', '(', ')']

/-- `encodeURIComponent` of JavaScript. -/
def encodeURIComponent (s : Name) : Name := encode unescaped s

/-- `/api/video/` -/
def videoRoute : Name := ['/', 'a', 'p', 'i', '/', 'v', 'i', 'd', 'e', 'o', '/']

/-- An item of the list. -/
structure VideoItem where
  href : Name
  name : Name
  timestamp : Name
  size : Name
deriving DecidableEq, Repr

/-- What `videoList` shows: `No recordings yet.`, or the items. -/
inductive VideoList where
  | noRecordings
  | recordings (items : List VideoItem)
deriving DecidableEq, Repr

/-- The items of the list, of which there may be none. -/
def VideoList.items : VideoList → List VideoItem
  | .noRecordings => []
  | .recordings items => items

/-- `loadVideos`, when the answer has come. -/
def loadVideos (videos : List VideoEntry) : VideoList :=
  if videos = [] then .noRecordings
  else .recordings (videos.map fun v =>
    ⟨videoRoute ++ encodeURIComponent v.name, v.name, v.timestamp, v.size⟩)

/-- Each item is made of one entry, and each entry has one. -/
theorem mem_items_loadVideos {videos : List VideoEntry} {item : VideoItem} :
    item ∈ (loadVideos videos).items ↔ ∃ v ∈ videos,
      item = ⟨videoRoute ++ encodeURIComponent v.name, v.name, v.timestamp, v.size⟩ := by
  rw [loadVideos]
  split
  next hnone => simp [hnone, VideoList.items]
  next => simp only [VideoList.items, List.mem_map, eq_comm]

theorem unescaped_of_mem_hexDigits {c : Char} (h : c ∈ hexDigits) : unescaped c = true := by
  have hall : hexDigits.all unescaped = true := by decide
  exact List.all_eq_true.mp hall c h

theorem mem_encodeURIComponent {s : Name} {c : Char} (h : c ∈ encodeURIComponent s) :
    unescaped c = true ∨ c = '%' := by
  rcases mem_encode h with h | h | h
  · exact Or.inl h
  · exact Or.inr h
  · exact Or.inl (unescaped_of_mem_hexDigits h)

/-- A text that only has characters that are left is left as it is. -/
theorem eq_of_encodeURIComponent_eq {s s' : Name} (hs : s'.all unescaped = true)
    (h : encodeURIComponent s = s') : s = s' := by
  have hinjective : Function.Injective encodeURIComponent := encode_injective (by decide)
  have hself : encodeURIComponent s' = s' := encode_eq_self (List.all_eq_true.mp hs)
  exact hinjective (h.trans hself.symm)

/-! ## The router -/

/-- A segment of a path in a request: no delimiter, and neither `.` nor `..`, which a browser
resolves. -/
structure IsSegment (segment : Name) : Prop where
  chars : ∀ c ∈ segment, unescaped c = true ∨ c = '%'
  nonempty : segment ≠ []
  dot : segment ≠ ['.']
  dots : segment ≠ ['.', '.']

/-- What is asked of the router, which answers with the path variable or refuses the request: it
decodes the segment once, as UTF-8.  It may refuse a backslash. -/
structure RoutesVideos (pathVariable : Name → Option Name) : Prop where
  decodes : ∀ segment name, IsSegment segment → decode segment = some (utf8 name) →
    '\x00' ∉ name → '/' ∉ name → '\\' ∉ name → pathVariable (videoRoute ++ segment) = some name
  backslash : ∀ segment name, IsSegment segment → decode segment = some (utf8 name) →
    '\x00' ∉ name → '/' ∉ name → '\\' ∈ name →
    pathVariable (videoRoute ++ segment) = none ∨ pathVariable (videoRoute ++ segment) = some name

/-- The answer to a request for a path. -/
def requestVideo (pathVariable : Name → Option Name) (c : Convention Char) (t : FileTree Char)
    (cwd : List Name) (path : Name) : VideoResponse :=
  match pathVariable path with
  | some filename => streamVideo c t cwd filename
  | none => .badRequest

/-! ## The directory -/

/-- `listFiles()` of `videos/` has answered with these names and lengths. -/
structure Lists (c : Convention Char) (t : FileTree Char) (cwd : List Name)
    (files : List (Name × Nat)) : Prop where
  directory : t.kind (cwd ++ [videosName]) = some .directory
  entries : ∀ name, name ∈ files.map Prod.fst ↔ t.kind (cwd ++ [videosName, name]) ≠ none
  nodup : (files.map Prod.fst).Nodup
  name : ∀ name ∈ files.map Prod.fst, name ≠ [] ∧ '\x00' ∉ name ∧
    ∀ x ∈ name, c.separator x = false

variable {c : Convention Char} {t : FileTree Char} {cwd : List Name} {files : List (Name × Nat)}
  {filename : Name} {pathVariable : Name → Option Name}

/-- A path to an entry of `videos/` leads there. -/
theorem kindAt_entry (hc : c = posix ∨ c = windows)
    (hdir : t.kind (cwd ++ [videosName]) = some .directory)
    (hname : ∀ x ∈ filename, c.separator x = false) (hnil : filename ≠ [])
    (hdot : filename ≠ ['.']) (hdots : filename ≠ ['.', '.']) :
    t.kindAt c cwd (videosDir ++ filename) = t.kind (cwd ++ [videosName, filename]) := by
  have hcdot : c.dot = '.' := by rcases hc with rfl | rfl <;> rfl
  have hsegments : c.segments (videosDir ++ filename) = [videosName, filename] := by
    rw [segments_file hc hname, if_neg hnil]
  have henter : c.enter (cwd ++ [videosName]) filename = cwd ++ [videosName, filename] := by
    rw [c.enter_name (hcdot ▸ hdot) (hcdot ▸ hdots), List.append_assoc]
    rfl
  have hcwd : t.kind cwd = some .directory :=
    t.parent cwd videosName (hdir.symm ▸ Option.some_ne_none _)
  have hlocate : t.locate c cwd (videosDir ++ filename) = some (cwd ++ [videosName, filename]) := by
    rw [FileTree.locate, hsegments]
    split
    next =>
      rw [Convention.resolve, List.foldl_cons, enter_videos hc, List.foldl_cons, henter]
      rfl
    next =>
      rw [FileTree.walk, if_pos hcwd, enter_videos hc, FileTree.walk, if_pos hdir, henter]
      rfl
  rw [FileTree.kindAt, hlocate]
  rfl

/-- What `streamVideo` answers for an entry of `videos/`. -/
def answerFor (t : FileTree Char) (cwd : List Name) (filename : Name) : VideoResponse :=
  if ['.', '.'] <:+: filename ∨ ['\\'] <:+: filename then .badRequest
  else if t.kind (cwd ++ [videosName, filename]) = some .file then
    .ok ("inline; filename=\"" ++ String.ofList filename ++ "\"") "video/mp4"
      (videosDir ++ filename)
  else .notFound

theorem slash_notMem (hc : c = posix ∨ c = windows)
    (hname : ∀ x ∈ filename, c.separator x = false) : '/' ∉ filename := by
  intro hmem
  have hslash : c.separator '/' = true := by rcases hc with rfl | rfl <;> rfl
  exact Bool.false_ne_true ((hname '/' hmem).symm.trans hslash)

/-- The entry of a directory is answered by its name. -/
theorem streamVideo_entry (hc : c = posix ∨ c = windows) (hl : Lists c t cwd files)
    (hmem : filename ∈ files.map Prod.fst) (hdot : filename ≠ ['.']) :
    streamVideo c t cwd filename = answerFor t cwd filename := by
  obtain ⟨hnil, hnul, hname⟩ := hl.name filename hmem
  have hslash : ¬ ['/'] <:+: filename := fun h =>
    slash_notMem hc hname ((List.singleton_infix_iff _ _).mp h)
  rw [streamVideo, answerFor]
  by_cases hrefused : ['.', '.'] <:+: filename ∨ ['\\'] <:+: filename
  · rw [if_pos (hrefused.imp_right Or.inr), if_pos hrefused]
  · have hdots : filename ≠ ['.', '.'] := fun h => hrefused (Or.inl (h ▸ List.infix_rfl))
    have hkind := kindAt_entry hc hl.directory hname hnil hdot hdots
    have hexists : t.kind (cwd ++ [videosName, filename]) ≠ none := (hl.entries filename).mp hmem
    have hpath : '\x00' ∉ videosDir ++ filename := by
      rw [List.mem_append, not_or]
      exact ⟨by decide, hnul⟩
    rw [if_neg (by tauto), if_neg hrefused]
    dsimp only
    rw [fileExists, isFile, hkind]
    cases h : t.kind (cwd ++ [videosName, filename]) with
    | none => exact absurd h hexists
    | some k => cases k <;> simp [hpath]

/-- The link of an entry of `videos/` leads to it. -/
theorem requestVideo_href (hc : c = posix ∨ c = windows) (hroutes : RoutesVideos pathVariable)
    (hl : Lists c t cwd files) (hmem : filename ∈ files.map Prod.fst)
    (hmp4 : mp4Suffix <:+ filename) :
    requestVideo pathVariable c t cwd (videoRoute ++ encodeURIComponent filename) =
      answerFor t cwd filename := by
  obtain ⟨hnil, hnul, hname⟩ := hl.name filename hmem
  have hslash := slash_notMem hc hname
  have hlength : 4 ≤ filename.length := hmp4.length_le
  have hdot : filename ≠ ['.'] := by
    rintro rfl
    exact absurd hlength (by decide)
  have hdots : filename ≠ ['.', '.'] := by
    rintro rfl
    exact absurd hlength (by decide)
  have hsegment : IsSegment (encodeURIComponent filename) :=
    ⟨fun _ => mem_encodeURIComponent,
      fun h => hnil (eq_of_encodeURIComponent_eq (by decide) h),
      fun h => hdot (eq_of_encodeURIComponent_eq (by decide) h),
      fun h => hdots (eq_of_encodeURIComponent_eq (by decide) h)⟩
  have hdecode : decode (encodeURIComponent filename) = some (utf8 filename) :=
    decode_encode (by decide) filename
  rw [← streamVideo_entry hc hl hmem hdot, requestVideo]
  by_cases hbackslash : '\\' ∈ filename
  · have hinfix : ['\\'] <:+: filename := (List.singleton_infix_iff _ _).mpr hbackslash
    rcases hroutes.backslash _ _ hsegment hdecode hnul hslash hbackslash with h | h <;> rw [h]
    rw [streamVideo, if_pos (Or.inr (Or.inr hinfix))]
  · rw [hroutes.decodes _ _ hsegment hdecode hnul hslash hbackslash]

/-! ## The list and its links -/

/-- Each file that ends with `.mp4` is listed, and nothing else. -/
theorem mem_videos {separator : Char} {v : VideoEntry} :
    v ∈ videos separator (some files) ↔ ∃ f ∈ files, mp4Suffix <:+ f.1 ∧
      v = ⟨f.1, formatSize separator f.2, extractTimestamp f.1⟩ := by
  rw [videos, List.mem_insertionSort]
  constructor
  · intro hv
    obtain ⟨f, hf, rfl⟩ := List.mem_map.mp hv
    obtain ⟨hf, hmp4⟩ := List.mem_filter.mp hf
    exact ⟨f, hf, List.isSuffixOf_iff_suffix.mp hmp4, rfl⟩
  · rintro ⟨f, hf, hmp4, rfl⟩
    exact List.mem_map.mpr
      ⟨f, List.mem_filter.mpr ⟨hf, List.isSuffixOf_iff_suffix.mpr hmp4⟩, rfl⟩

theorem names_nodup {separator : Char} (hnodup : (files.map Prod.fst).Nodup) :
    ((videos separator (some files)).map VideoEntry.name).Nodup := by
  have hperm := List.perm_insertionSort (fun a b : VideoEntry => b.name ≤ a.name)
    ((files.filter fun f => mp4Suffix.isSuffixOf f.1).map fun f =>
      (⟨f.1, formatSize separator f.2, extractTimestamp f.1⟩ : VideoEntry))
  refine ((hperm.map VideoEntry.name).nodup_iff).mpr ?_
  rw [List.map_map]
  exact hnodup.sublist (List.filter_sublist.map Prod.fst)

/-- Two names never have the same link. -/
theorem href_injective :
    Function.Injective fun name => videoRoute ++ encodeURIComponent name := fun _ _ h =>
  encode_injective (by decide) (List.append_cancel_left h)

/-- The items of the page, for a listing of `videos/`. -/
def itemsOf (separator : Char) (files : List (Name × Nat)) : List VideoItem :=
  (loadVideos (videos separator (some files))).items

/-- The items of the page are the files that end with `.mp4`. -/
theorem mem_itemsOf {separator : Char} {item : VideoItem} :
    item ∈ itemsOf separator files ↔ ∃ f ∈ files, mp4Suffix <:+ f.1 ∧
      item = ⟨videoRoute ++ encodeURIComponent f.1, f.1, extractTimestamp f.1,
        formatSize separator f.2⟩ := by
  rw [itemsOf, mem_items_loadVideos]
  constructor
  · rintro ⟨v, hv, rfl⟩
    obtain ⟨f, hf, hmp4, rfl⟩ := mem_videos.mp hv
    exact ⟨f, hf, hmp4, rfl⟩
  · rintro ⟨f, hf, hmp4, rfl⟩
    exact ⟨_, mem_videos.mpr ⟨f, hf, hmp4, rfl⟩, rfl⟩

theorem hrefs_itemsOf (separator : Char) (files : List (Name × Nat)) :
    (itemsOf separator files).map VideoItem.href =
      ((videos separator (some files)).map VideoEntry.name).map fun name =>
        videoRoute ++ encodeURIComponent name := by
  rw [itemsOf, loadVideos]
  split
  next hnone =>
    rw [hnone]
    rfl
  next =>
    rw [VideoList.items, List.map_map, List.map_map]
    rfl

/-- The list has an item for each entry of `videos/` that ends in `.mp4`, no two items have one
link, and each link is answered with the file of its item, unless this is a directory or its
name is refused. -/
theorem links_of_list (hc : c = posix ∨ c = windows) (hroutes : RoutesVideos pathVariable)
    (hl : Lists c t cwd files) (separator : Char) :
    (∀ name, (∃ item ∈ itemsOf separator files, item.name = name) ↔
      mp4Suffix <:+ name ∧ t.kind (cwd ++ [videosName, name]) ≠ none) ∧
    ((itemsOf separator files).map VideoItem.href).Nodup ∧
    ∀ item ∈ itemsOf separator files,
      requestVideo pathVariable c t cwd item.href = answerFor t cwd item.name := by
  refine ⟨fun name => ⟨?_, ?_⟩, ?_, ?_⟩
  · rintro ⟨item, hitem, rfl⟩
    obtain ⟨f, hf, hmp4, rfl⟩ := mem_itemsOf.mp hitem
    exact ⟨hmp4, (hl.entries f.1).mp (List.mem_map_of_mem hf)⟩
  · rintro ⟨hmp4, hentry⟩
    obtain ⟨f, hf, rfl⟩ := List.mem_map.mp ((hl.entries name).mpr hentry)
    exact ⟨_, mem_itemsOf.mpr ⟨f, hf, hmp4, rfl⟩, rfl⟩
  · rw [hrefs_itemsOf]
    exact (List.nodup_map_iff href_injective).mpr (names_nodup hl.nodup)
  · intro item hitem
    obtain ⟨f, hf, hmp4, rfl⟩ := mem_itemsOf.mp hitem
    exact requestVideo_href hc hroutes hl (List.mem_map_of_mem hf) hmp4

/-- A router that decodes. -/
def decodePath (path : Name) : Option Name :=
  if videoRoute.isPrefixOf path then (decode (path.drop videoRoute.length)).bind ofUtf8 else none

/-- The path of a link is decoded to the name. -/
theorem decodePath_segment {segment name : Name} (h : decode segment = some (utf8 name)) :
    decodePath (videoRoute ++ segment) = some name := by
  rw [decodePath, if_pos (List.isPrefixOf_iff_prefix.mpr (List.prefix_append _ _)),
    List.drop_left, h]
  exact ofUtf8_utf8 name

theorem routesVideos_decodePath : RoutesVideos decodePath where
  decodes _ _ _ h _ _ _ := decodePath_segment h
  backslash _ _ _ h _ _ _ := Or.inr (decodePath_segment h)

/-- The only file of the directory. -/
theorem lists_ofFile (name : Name) (hnil : name ≠ []) (hnul : '\x00' ∉ name)
    (hslash : '/' ∉ name) (bytes : Nat) :
    Lists posix (.ofFile [videosName, name]) [] [(name, bytes)] where
  directory := rfl
  entries name' := by
    constructor
    · intro h
      obtain rfl := List.mem_singleton.mp h
      exact fun hnone => by simp [FileTree.ofFile] at hnone
    · intro h
      by_contra hne
      have hne : name' ≠ name := fun he => hne (List.mem_singleton.mpr he)
      exact h (by simp [FileTree.ofFile, hne])
  nodup := List.nodup_singleton _
  name name' h := by
    obtain rfl := List.mem_singleton.mp h
    exact ⟨hnil, hnul, fun x hx => beq_eq_false_iff_ne.mpr fun he => hslash (he ▸ hx)⟩

/-- A name with a percent sign, a blank and an accent. -/
def oddName : Name := "50% é.mp4".toList

/-- Such a name is escaped in the link and delivered as it is. -/
theorem links_of_list_oddName :
    ∃ item ∈ itemsOf ',' [(oddName, 1024)], item.name = oddName ∧
      item.href = "/api/video/50%25%20%C3%A9.mp4".toList ∧
      requestVideo decodePath posix (.ofFile ["videos".toList, oddName]) [] item.href =
        .ok "inline; filename=\"50% é.mp4\"" "video/mp4" "videos/50% é.mp4".toList := by
  obtain ⟨hlisted, -, hanswers⟩ := links_of_list (Or.inl rfl) routesVideos_decodePath
    (lists_ofFile oddName (by decide) (by decide) (by decide) 1024) ','
  obtain ⟨item, hitem, hname⟩ := (hlisted oddName).mpr ⟨by decide, by decide⟩
  refine ⟨item, hitem, hname, ?_, ?_⟩
  · obtain ⟨f, -, -, rfl⟩ := mem_itemsOf.mp hitem
    have hname : f.1 = oddName := hname
    have hencoded : videoRoute ++ encodeURIComponent oddName =
        "/api/video/50%25%20%C3%A9.mp4".toList := by decide +kernel
    rw [hname, hencoded]
  · refine (hanswers item hitem).trans ?_
    rw [hname, answerFor, if_neg (by decide), if_pos (by decide)]
    decide +kernel

/-! ## The recordings of the server -/

variable {time : LocalDateTime}

/-- The name of a recording passes the test of `streamVideo`. -/
theorem videoName_accepted (ht : time.HasFourDigits) :
    ¬ (['.', '.'] <:+: videoName time ∨ ['\\'] <:+: videoName time) := by
  rintro (h | h)
  · have hdots : 2 ≤ (videoName time).count '.' := h.sublist.count_le '.'
    have hdate : (format timestampPattern time).count '.' = 0 :=
      List.count_eq_zero.mpr (not_mem_format ht rfl (by decide))
    rw [videoName, List.count_append, List.count_append, hdate] at hdots
    exact absurd hdots (by decide)
  · have hmem : '\\' ∈ videoName time := (List.singleton_infix_iff _ _).mp h
    rw [videoName, List.mem_append, List.mem_append] at hmem
    rcases hmem with hmem | hmem | hmem
    · exact absurd hmem (by decide)
    · exact not_mem_format ht rfl (by decide) hmem
    · exact absurd hmem (by decide)

/-- A recording of the server is in the list with its date, and its link is answered with its
file. -/
theorem recording_plays (hc : c = posix ∨ c = windows) (hroutes : RoutesVideos pathVariable)
    (hl : Lists c t cwd files) (separator : Char) (ht : time.HasFourDigits)
    (hfile : t.kind (cwd ++ [videosName, videoName time]) = some .file) :
    ∃ item ∈ itemsOf separator files, item.name = videoName time ∧
      item.timestamp = dateText time ∧
      requestVideo pathVariable c t cwd item.href =
        .ok ("inline; filename=\"" ++ String.ofList (videoName time) ++ "\"") "video/mp4"
          (videosDir ++ videoName time) := by
  have hentry := (hl.entries (videoName time)).mpr (hfile.symm ▸ Option.some_ne_none _)
  have hmp4 : mp4Suffix <:+ videoName time :=
    List.isSuffixOf_iff_suffix.mp (endsWith_videoName time)
  obtain ⟨f, hf, hname⟩ := List.mem_map.mp hentry
  refine ⟨_, mem_itemsOf.mpr ⟨f, hf, hname ▸ hmp4, rfl⟩, hname, ?_, ?_⟩
  · rw [hname, extractTimestamp_videoName ht]
  · rw [hname, requestVideo_href hc hroutes hl hentry hmp4, answerFor,
      if_neg (videoName_accepted ht), if_pos hfile]

/-- A time of the leap day of 2024. -/
def leapDay : LocalDateTime :=
  ⟨⟨2024, 2, 29, by decide, by decide⟩, 12, 30, 45, by decide, by decide, by decide⟩

/-- A recording of a leap day. -/
theorem recording_plays_leapDay :
    ∃ item ∈ itemsOf ',' [("video_20240229_123045.mp4".toList, 1024)],
      item.timestamp = "29/02/2024 12:30:45".toList ∧
      requestVideo decodePath posix
          (.ofFile ["videos".toList, "video_20240229_123045.mp4".toList]) [] item.href =
        .ok "inline; filename=\"video_20240229_123045.mp4\"" "video/mp4"
          "videos/video_20240229_123045.mp4".toList := by
  have hname : videoName leapDay = "video_20240229_123045.mp4".toList := by decide
  have hdate : dateText leapDay = "29/02/2024 12:30:45".toList := by decide
  have hdigits : leapDay.HasFourDigits := by decide
  obtain ⟨item, hitem, -, htime, hanswer⟩ :=
    recording_plays (Or.inl rfl) routesVideos_decodePath
      (lists_ofFile (videoName leapDay) (by decide) (by decide) (by decide) 1024) ','
      hdigits (by decide)
  rw [hname] at hitem hanswer
  exact ⟨item, hitem, htime.trans hdate, hanswer⟩

end WeldingServer.Dashboard
