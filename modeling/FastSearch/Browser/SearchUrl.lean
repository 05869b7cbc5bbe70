import FastSearch.Lib.FormUrl
import FastSearch.Browser.Tab

/-!
# The URL of a search

`AndroidWebEngine.searchContent` puts the text of a search as it was typed behind the
`queryUrl` of the selected engine, `browser/search`. What the site of the engine gets to read is
the value of its search parameter, as the URL Standard has it.
-/

namespace FastSearch.Browser

/-- The implementations of `ISearchEngine`. -/
inductive SearchEngine where
  | googleSearch
  | bingSearch
  | yahooSearch
  | duckSearch
  deriving DecidableEq, Repr

/-- `GOOGLE_NAME_ENGINE_URL`, `browser/search/GoogleSearch.kt:4`. -/
def googleNameEngineUrl : String :=
  "https://www.google.com/search?client=lightning&ie=UTF-8&oe=UTF-8&q="

/-- `BING_NAME_ENGINE_URL`, `browser/search/SearchEngineImpl.kt:4`. -/
def bingNameEngineUrl : String := "https://www.bing.com/search?q="

/-- `YAHOO_NAME_ENGINE_URL`, `browser/search/SearchEngineImpl.kt:10`. -/
def yahooNameEngineUrl : String := "https://search.yahoo.com/search?p="

/-- `Duck_NAME_ENGINE_URL`, `browser/search/SearchEngineImpl.kt:16`. -/
def duckNameEngineUrl : String := "https://duckduckgo.com/t=mysearch&q="

namespace SearchEngine

/-- `queryUrl`. -/
def queryUrl : SearchEngine → String
  | .googleSearch => googleNameEngineUrl
  | .bingSearch => bingNameEngineUrl
  | .yahooSearch => yahooNameEngineUrl
  | .duckSearch => duckNameEngineUrl

/-- The parameter that the site reads the text from. -/
def searchParameter : SearchEngine → String
  | .yahooSearch => "p"
  | .googleSearch | .bingSearch | .duckSearch => "q"

end SearchEngine

/-- `provideSearchEngine`, `browser/di/ComponentProvider.kt:20`. -/
def provideSearchEngine (curSelectedEngine : String) : SearchEngine :=
  if curSelectedEngine = bingNameEngineUrl then .bingSearch
  else if curSelectedEngine = duckNameEngineUrl then .duckSearch
  else if curSelectedEngine = yahooNameEngineUrl then .yahooSearch
  else .googleSearch

/-- The URL that `searchContent` passes to `loadUrl`,
`browser/engine/android/AndroidWebEngine.kt:116`. -/
def searchContent (curSelectedEngine content : String) : String :=
  (provideSearchEngine curSelectedEngine).queryUrl ++ content

/-- A search of the app loads that URL in the foreground tab. -/
theorem step_searchContent (E : Env) (s : State) (curSelectedEngine content : String) :
    s.step E (.searchContent (provideSearchEngine curSelectedEngine).queryUrl content) =
      s.step E (.loadUrl (searchContent curSelectedEngine content)) :=
  rfl

/-- The site reads the text that was searched for. -/
def TextRead (curSelectedEngine content : String) : Prop :=
  FormUrl.get (provideSearchEngine curSelectedEngine).searchParameter.toList
    (searchContent curSelectedEngine content).toList = some content.toList

private theorem isFront_queryUrl (e : SearchEngine) : FormUrl.IsFront e.queryUrl.toList := by
  cases e <;> exact FormUrl.isFront_of_all (by decide +kernel) (by decide +kernel)

/-- An engine whose `queryUrl` ends in its search parameter. -/
private theorem get_queryUrl_iff {e : SearchEngine} (a b : List Char)
    (hurl : e.queryUrl.toList = a ++ '?' :: (b ++ (e.searchParameter.toList ++ ['='])))
    (ha : '?' ∉ a)
    (hb : b = [] ∨ ∃ b', b = b' ++ ['&'] ∧
      (FormUrl.parseForm (FormUrl.encode b')).lookup e.searchParameter.toList = none)
    (content : String) :
    FormUrl.get e.searchParameter.toList (e.queryUrl ++ content).toList = some content.toList ↔
      FormUrl.Verbatim content.toList := by
  have hfront : FormUrl.IsFront e.queryUrl.toList := isFront_queryUrl e
  rw [String.toList_append, hurl]
  rw [hurl] at hfront
  apply FormUrl.get_append_eq_iff hfront ha hb
  · cases e <;> decide +kernel
  · cases e <;> decide +kernel
  · cases e <;> decide +kernel

/-- The text of a search comes back exactly if the engine is not DuckDuckGo, whose `queryUrl`
has no query, and no character of the text has a meaning in URLs. -/
theorem textRead_iff (curSelectedEngine content : String) :
    TextRead curSelectedEngine content ↔
      provideSearchEngine curSelectedEngine ≠ .duckSearch ∧
        FormUrl.Verbatim content.toList := by
  unfold TextRead searchContent
  cases provideSearchEngine curSelectedEngine with
  | googleSearch =>
    rw [get_queryUrl_iff "https://www.google.com/search".toList
      "client=lightning&ie=UTF-8&oe=UTF-8&".toList (by decide +kernel) (by decide +kernel)
      (Or.inr ⟨"client=lightning&ie=UTF-8&oe=UTF-8".toList, by decide +kernel, by decide +kernel⟩)]
    exact (and_iff_right SearchEngine.noConfusion).symm
  | bingSearch =>
    rw [get_queryUrl_iff "https://www.bing.com/search".toList [] (by decide +kernel)
      (by decide +kernel) (Or.inl rfl)]
    exact (and_iff_right SearchEngine.noConfusion).symm
  | yahooSearch =>
    rw [get_queryUrl_iff "https://search.yahoo.com/search".toList [] (by decide +kernel)
      (by decide +kernel) (Or.inl rfl)]
    exact (and_iff_right SearchEngine.noConfusion).symm
  | duckSearch =>
    refine iff_of_false ?_ fun h ↦ h.1 rfl
    rw [String.toList_append]
    exact FormUrl.get_append_ne (isFront_queryUrl .duckSearch) (by decide +kernel) _ _

/-- Google gets to read `a` for `a&b`, and DuckDuckGo no parameter for `cats`. -/
theorem text_cut_at_ampersand :
    ¬ TextRead googleNameEngineUrl "a&b" ∧ ¬ TextRead duckNameEngineUrl "cats" := by
  unfold TextRead
  decide +kernel

end FastSearch.Browser
