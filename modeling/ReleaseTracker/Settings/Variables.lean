/-! The variables of the environment that settings have, each named after its place. -/

namespace ReleaseTracker.Settings

def variableNames : List String :=
  ["STARFEED_DATABASE__URL", "STARFEED_GITHUB__CLIENT_ID", "STARFEED_GITHUB__CLIENT_SECRET",
    "STARFEED_GITHUB__LISTING", "STARFEED_GITHUB__REQUESTS_PER_SECOND",
    "STARFEED_PUBLISHER__HUB_URL", "STARFEED_PUBLISHER__FEED_URL_TEMPLATE",
    "STARFEED_WORKER__CONCURRENCY"]

end ReleaseTracker.Settings
